import NimRtc.QpackTables
import NimRtc.Lib.Machine

/-!
# Header compression

`web_transport_qpack.cpp`: the QPACK decoder with its dynamic table, the instructions of the peer's
encoder stream, and the encoder, which refers to the static table only. A `std::string` is its bytes.
Strings and tables are bounded by memory, so sums of their sizes do not wrap; `size_` does where it
is decreased, and the index of an entry does where the peer chooses it.
-/

namespace NimRtc.Qpack

/-- A field, in bytes. -/
structure QpackHeaderField where
  name : List UInt8
  value : List UInt8
  deriving DecidableEq, Repr

/-- What an entry counts for beside its bytes, and the most that the table may hold. -/
def kEntryOverhead : ℕ := 32

def kMaxTableCapacity : ℕ := 4096

/-- The bytes of a string. -/
def text (s : String) : List UInt8 := s.toUTF8.toList

/-! ### Encoding -/

/-- What follows the first byte of an integer: seven bits a byte, the low ones first. -/
def encodeRest (rest : ℕ) : List UInt8 :=
  if rest < 128 then [UInt8.ofNat rest]
  else UInt8.ofNat (rest % 128 + 128) :: encodeRest (rest / 128)

/-- `encode_prefixed_int` -/
def encodePrefixedInt (bits flags value : ℕ) : List UInt8 :=
  let mask := 2 ^ bits - 1
  if value < mask then [UInt8.ofNat (flags ||| value)]
  else UInt8.ofNat (flags ||| mask) :: encodeRest (value - mask)

/-- A string behind its length, without Huffman coding. -/
def encodeStringLiteral (value : List UInt8) : List UInt8 :=
  encodePrefixedInt 7 0x00 value.length ++ value

/-- The entry of the static table with this name and value. -/
def findStaticEntry (name value : List UInt8) : Option ℕ :=
  kStaticTable.findIdx? fun e => name = text e.name ∧ value = text e.value

/-- The first entry of the static table with this name. -/
def findStaticName (name : List UInt8) : Option ℕ :=
  kStaticTable.findIdx? fun e => name = text e.name

/-- A field line: the entry, the name of one, or both in full. -/
def encodeField (field : QpackHeaderField) : List UInt8 :=
  match findStaticEntry field.name field.value with
  | some exactIndex => encodePrefixedInt 6 0xC0 exactIndex
  | none =>
    match findStaticName field.name with
    | some nameOnly => encodePrefixedInt 4 0x50 nameOnly ++ encodeStringLiteral field.value
    | none =>
      encodePrefixedInt 3 0x20 field.name.length ++ field.name ++ encodeStringLiteral field.value

/-- Required Insert Count and Base are 0. -/
def encodeFieldSection (fields : List QpackHeaderField) : Bool × List UInt8 :=
  (true, [0x00, 0x00] ++ fields.flatMap encodeField)

/-! ### Primitives -/

/-- The bytes after the prefix, seven bits each. -/
def decodeRest (mask : ℕ) : ℕ → ℕ → List UInt8 → Option (ℕ × List UInt8)
  | _, _, [] => none
  | extra, shift, b :: data =>
    let extra := extra ||| (b &&& 0x7F).toNat <<< shift
    if b &&& 0x80 = 0 then some (mask + extra, data)
    else if 56 < shift + 7 then none
    else decodeRest mask extra (shift + 7) data

/-- `decode_prefixed_int`: the value, and what follows it. -/
def decodePrefixedInt (bits : ℕ) (data : List UInt8) : Option (ℕ × List UInt8) :=
  if bits = 0 ∨ 8 < bits then none
  else
    match data with
    | [] => none
    | first :: rest =>
      let mask := 2 ^ bits - 1
      let val := first.toNat &&& mask
      if val < mask then some (val, rest) else decodeRest mask 0 0 rest

/-- The bits that are not yet a symbol, and the symbols so far. -/
structure HuffmanState where
  code : ℕ := 0
  len : ℕ := 0
  out : List UInt8 := []
  deriving DecidableEq, Repr

/-- One bit more. -/
def huffmanBit (s : HuffmanState) (bit : Bool) : Option HuffmanState :=
  let code := s.code <<< 1 ||| bit.toNat
  let len := s.len + 1
  if kHuffmanMaxBits < len then none
  else
    let count := kHuffmanCount.getD len 0
    let first := kHuffmanFirstCode.getD len 0
    if count = 0 then some { s with code, len }
    else if code < first ∨ first + count ≤ code then some { s with code, len }
    else
      let symbol := kHuffmanSymbols.getD (kHuffmanSymbolStart.getD len 0 + (code - first)) 0
      if symbol = 256 then none else some { out := s.out ++ [UInt8.ofNat symbol] }

/-- The bits of a byte, the high one first. -/
def byteBits (b : UInt8) : List Bool := (List.range 8).map fun i => b.toNat.testBit (7 - i)

/-- The bits that are left must be ones, and fewer than eight. -/
def huffmanDecode (data : List UInt8) : Option (List UInt8) := do
  let s ← (data.flatMap byteBits).foldlM huffmanBit {}
  if 7 < s.len then none
  else if 0 < s.len ∧ s.code ≠ 2 ^ s.len - 1 then none
  else some s.out

/-- `decode_string`: the string, and what follows it. -/
def decodeString (bits : ℕ) (data : List UInt8) : Option (List UInt8 × List UInt8) :=
  if bits < 2 ∨ 8 < bits then none
  else
    match data with
    | [] => none
    | first :: _ =>
      match decodePrefixedInt (bits - 1) data with
      | none => none
      | some (length, data) =>
        if data.length < length then none
        else if first.toNat &&& 2 ^ (bits - 1) = 0 then some (data.take length, data.drop length)
        else (huffmanDecode (data.take length)).map (·, data.drop length)

/-! ### The dynamic table -/

/-- An entry of the dynamic table. -/
structure DynamicEntry where
  name : List UInt8
  value : List UInt8
  deriving DecidableEq, Repr

/-- What an entry counts for. -/
def DynamicEntry.size (e : DynamicEntry) : ℕ := e.name.length + e.value.length + kEntryOverhead

/-- The dynamic table, oldest entry first, and the sticky error flag. -/
structure DynamicTable where
  entries : List DynamicEntry := []
  insertCount : ℕ := 0
  droppedCount : ℕ := 0
  capacity : ℕ := 0
  size : ℕ := 0
  failed : Bool := false
  deriving DecidableEq, Repr

namespace DynamicTable

/-- `evict_oldest` -/
def evictOldest (t : DynamicTable) : DynamicTable :=
  match t.entries with
  | [] => t
  | e :: es =>
    { t with
      size := (t.size + 2 ^ 64 - e.size) % 2 ^ 64
      entries := es
      droppedCount := t.droppedCount + 1 }

/-- Evicts while `incoming` more bytes do not fit: as often as there are entries, at most. -/
def evictFor (incoming : ℕ) : ℕ → DynamicTable → DynamicTable
  | 0, t => t
  | n + 1, t =>
    if t.capacity < t.size + incoming ∧ t.entries ≠ [] then evictFor incoming n t.evictOldest
    else t

/-- `set_capacity` -/
def setCapacity (t : DynamicTable) (capacity : ℕ) : DynamicTable :=
  evictFor 0 t.entries.length { t with capacity }

/-- `insert_entry`: the table after it, and the entries that were added. -/
def insertEntry (t : DynamicTable) (name value : List UInt8) : DynamicTable × List DynamicEntry :=
  let e : DynamicEntry := ⟨name, value⟩
  if t.capacity = 0 ∨ t.capacity < e.size then ({ t with failed := true }, [])
  else
    let t := evictFor e.size t.entries.length t
    ({ t with
      size := t.size + e.size
      entries := t.entries ++ [e]
      insertCount := t.insertCount + 1 }, [e])

/-- `entry_by_absolute` -/
def entryByAbsolute (t : DynamicTable) (absoluteIndex : ℕ) : Option DynamicEntry :=
  if absoluteIndex < t.droppedCount then none
  else t.entries[absoluteIndex - t.droppedCount]?

/-- `entry_by_relative` -/
def entryByRelative (t : DynamicTable) (relativeIndex base : ℕ) : Option DynamicEntry :=
  if base ≤ relativeIndex then none else t.entryByAbsolute (base - 1 - relativeIndex)

end DynamicTable

/-! ### Field sections -/

namespace DynamicTable

variable (t : DynamicTable)

/-- The Required Insert Count of a section from what was sent for it. -/
def requiredInsertCount (encodedInsertCount : ℕ) : Option ℕ :=
  let maxEntries := kMaxTableCapacity / kEntryOverhead
  if encodedInsertCount = 0 then some 0
  else
    let fullRange := 2 * maxEntries
    if fullRange < encodedInsertCount then none
    else
      let maxValue := (t.insertCount + maxEntries) % 2 ^ 64
      let maxWrapped := maxValue / fullRange * fullRange
      let ric := (maxWrapped + encodedInsertCount - 1) % 2 ^ 64
      if maxValue < ric then
        if ric ≤ fullRange then none
        else if ric - fullRange = 0 then none
        else some (ric - fullRange)
      else if ric = 0 then none
      else some ric

/-- The prefix of a section: the base, and the field lines. -/
def decodeSectionPrefix (block : List UInt8) : Option (ℕ × List UInt8) := do
  let (encodedInsertCount, rem) ← decodePrefixedInt 8 block
  match rem with
  | [] => none
  | first :: _ =>
    let (deltaBase, rem) ← decodePrefixedInt 7 rem
    let requiredInsertCount ← t.requiredInsertCount encodedInsertCount
    if first &&& 0x40 ≠ 0 then
      if requiredInsertCount ≤ deltaBase then none
      else some (requiredInsertCount - deltaBase - 1, rem)
    else some ((requiredInsertCount + deltaBase) % 2 ^ 64, rem)

/-- The name that a literal field line refers to. -/
def lineName (isStatic : Bool) (index base : ℕ) : Option (List UInt8) :=
  if isStatic then kStaticTable[index]?.map (text ·.name)
  else (t.entryByRelative index base).map (·.name)

/-- One field line. -/
def decodeFieldLine (base : ℕ) (rem : List UInt8) : Option (QpackHeaderField × List UInt8) :=
  match rem with
  | [] => none
  | first :: _ =>
    if first &&& 0x80 ≠ 0 then do
      let (index, rem) ← decodePrefixedInt 6 rem
      if first &&& 0x40 ≠ 0 then
        let e ← kStaticTable[index]?
        some (⟨text e.name, text e.value⟩, rem)
      else
        let e ← t.entryByRelative index base
        some (⟨e.name, e.value⟩, rem)
    else if first &&& 0xC0 = 0x40 then do
      let (index, rem) ← decodePrefixedInt 4 rem
      let name ← t.lineName (first &&& 0x10 ≠ 0) index base
      let (value, rem) ← decodeString 8 rem
      some (⟨name, value⟩, rem)
    else if first &&& 0xE0 = 0x20 then do
      let (name, rem) ← decodeString 4 rem
      let (value, rem) ← decodeString 8 rem
      some (⟨name, value⟩, rem)
    else if first &&& 0xF0 = 0x10 then do
      let (index, rem) ← decodePrefixedInt 4 rem
      let e ← t.entryByAbsolute ((base + index) % 2 ^ 64)
      some (⟨e.name, e.value⟩, rem)
    else do
      let (index, rem) ← decodePrefixedInt 3 rem
      let e ← t.entryByAbsolute ((base + index) % 2 ^ 64)
      let (value, rem) ← decodeString 8 rem
      some (⟨e.name, value⟩, rem)

/-- The field lines: a line takes at least one byte. -/
def decodeFieldLines (base : ℕ) :
    ℕ → List QpackHeaderField → List UInt8 → Bool × List QpackHeaderField
  | _, out, [] => (true, out)
  | 0, out, _ :: _ => (false, out)
  | n + 1, out, b :: rem =>
    match t.decodeFieldLine base (b :: rem) with
    | none => (false, out)
    | some (field, rem) => decodeFieldLines base n (out ++ [field]) rem

end DynamicTable

/-! ### The decoder -/

/-- The decoder: its table, and the bytes of an instruction that is not complete. -/
structure QpackDecoder where
  table : DynamicTable := {}
  encoderBuffer : List UInt8 := []
  deriving DecidableEq, Repr

/-- `decode`: whether it succeeds, and the fields it has decoded. -/
def QpackDecoder.decode (d : QpackDecoder) (block : List UInt8) : Bool × List QpackHeaderField :=
  match d.table.decodeSectionPrefix block with
  | none => (false, [])
  | some (base, rem) => d.table.decodeFieldLines base rem.length [] rem

/-- The instructions of the encoder stream. -/
inductive Instruction
  | insertNameRef (isStatic : Bool) (index : ℕ) (value : List UInt8)
  | insertLiteral (name value : List UInt8)
  | setCapacity (capacity : ℕ)
  | duplicate (index : ℕ)
  deriving DecidableEq, Repr

/-- The first instruction of the stream, if it is complete. -/
def parseInstruction (rem : List UInt8) : Option (Instruction × List UInt8) :=
  match rem with
  | [] => none
  | first :: _ =>
    if first &&& 0x80 ≠ 0 then do
      let (index, next) ← decodePrefixedInt 6 rem
      let (value, next) ← decodeString 8 next
      some (.insertNameRef (first &&& 0x40 ≠ 0) index value, next)
    else if first &&& 0xC0 = 0x40 then do
      let (name, next) ← decodeString 6 rem
      let (value, next) ← decodeString 8 next
      some (.insertLiteral name value, next)
    else if first &&& 0xE0 = 0x20 then do
      let (capacity, next) ← decodePrefixedInt 5 rem
      some (.setCapacity capacity, next)
    else do
      let (index, next) ← decodePrefixedInt 5 rem
      some (.duplicate index, next)

/-- The entry `index` insertions before the last one. -/
def DynamicTable.recentEntry (t : DynamicTable) (index : ℕ) : Option DynamicEntry :=
  if t.insertCount ≤ index then none else t.entryByAbsolute (t.insertCount - 1 - index)

/-- The name that an insertion refers to. -/
def DynamicTable.insertName (t : DynamicTable) (isStatic : Bool) (index : ℕ) :
    Option (List UInt8) :=
  if isStatic then kStaticTable[index]?.map (text ·.name)
  else (t.recentEntry index).map (·.name)

/-- A complete instruction: nothing if it is refused. -/
def DynamicTable.execute (t : DynamicTable) : Instruction → Option (DynamicTable × List DynamicEntry)
  | .insertNameRef isStatic index value =>
    (t.insertName isStatic index).map fun name => t.insertEntry name value
  | .insertLiteral name value => some (t.insertEntry name value)
  | .setCapacity capacity =>
    if kMaxTableCapacity < capacity then none else some (t.setCapacity capacity, [])
  | .duplicate index => (t.recentEntry index).map fun e => t.insertEntry e.name e.value

namespace QpackDecoder

/-- The instructions in `rem`: an instruction takes at least one byte. -/
def feedLoop : ℕ → QpackDecoder → List UInt8 → QpackDecoder × List DynamicEntry
  | _, d, [] => ({ d with encoderBuffer := [] }, [])
  | 0, d, _ :: _ => (d, [])
  | n + 1, d, b :: rem =>
    match parseInstruction (b :: rem) with
    | none => (d, [])
    | some (i, next) =>
      match d.table.execute i with
      | none => ({ d with table := { d.table with failed := true } }, [])
      | some (table, added) =>
        let (d, rest) := feedLoop n { d with table } next
        (d, added ++ rest)

/-- `feed_encoder_stream`: the decoder after it, and the entries that were added. -/
def feedEncoderStream (d : QpackDecoder) (data : List UInt8) : QpackDecoder × List DynamicEntry :=
  let d := { d with encoderBuffer := d.encoderBuffer ++ data }
  feedLoop d.encoderBuffer.length d d.encoderBuffer

/-- The encoder stream: each chunk is one call. -/
def stream : Machine QpackDecoder (List UInt8) DynamicEntry where
  step := feedEncoderStream

end QpackDecoder

/-- The entry an instruction asks for when these are in the table, the oldest first. -/
def Instruction.entry (entries : List DynamicEntry) : Instruction → Option DynamicEntry
  | .insertNameRef true index value => kStaticTable[index]?.map fun e => ⟨text e.name, value⟩
  | .insertNameRef false index value => entries.reverse[index]?.map fun e => ⟨e.name, value⟩
  | .insertLiteral name value => some ⟨name, value⟩
  | .setCapacity _ => none
  | .duplicate index => entries.reverse[index]?

namespace QpackDecoder

/-- All of `rem` is complete instructions, and all are carried out. -/
inductive AllDone : DynamicTable → List UInt8 → Prop
  | nil (t : DynamicTable) : AllDone t []
  | step {t : DynamicTable} {rem next : List UInt8} {i : Instruction}
      {r : DynamicTable × List DynamicEntry} (hparse : parseInstruction rem = some (i, next))
      (hexec : t.execute i = some r) (hnext : AllDone r.1 next) : AllDone t rem

/-- Before the first instruction of `rem` that is incomplete or refused there are only changes of
the capacity. -/
inductive OnlyCapacities : DynamicTable → List UInt8 → Prop
  | incomplete {t : DynamicTable} {rem : List UInt8} (hparse : parseInstruction rem = none) :
      OnlyCapacities t rem
  | refused {t : DynamicTable} {rem next : List UInt8} {i : Instruction}
      (hparse : parseInstruction rem = some (i, next)) (hexec : t.execute i = none) :
      OnlyCapacities t rem
  | capacity {t : DynamicTable} {rem next : List UInt8} {n : ℕ}
      (hparse : parseInstruction rem = some (.setCapacity n, next)) (hn : n ≤ kMaxTableCapacity)
      (hnext : OnlyCapacities (t.setCapacity n) next) : OnlyCapacities t rem

/-- A call after which the next one may repeat what is in the buffer: there is nothing left in it, or
nothing that adds an entry. -/
def RepeatsNothing (d : QpackDecoder) (chunk : List UInt8) : Prop :=
  AllDone d.table (d.encoderBuffer ++ chunk) ∨ OnlyCapacities d.table (d.encoderBuffer ++ chunk)

end QpackDecoder

end NimRtc.Qpack
