import Mathlib

/-!
# JSON libraries

What programs that read and write JSON by the keys of objects use of a library, and what they rely on.
A library that meets it: its values are those without floating point numbers and arrays.
-/

namespace NimRtc

/-- The types that are written as JSON values and read from them. -/
inductive JsonType
  | string
  | bool
  | int
  | uint32
  | uint8

/-- The type that is written and read. -/
abbrev JsonType.El : JsonType → Type
  | string => String
  | bool => Bool
  | int => Int32
  | uint32 => UInt32
  | uint8 => UInt8

/-- A library whose exceptions are of type `ε`. -/
structure JsonLibrary (ε : Type) where
  Value : Type
  null : Value
  emptyObject : Value
  ofEl : (t : JsonType) → t.El → Value
  /-- The member of an object with a key, if it contains one. -/
  find : Value → String → Option Value
  /-- The value with a member put in. -/
  set : Value → String → Value → Value
  isNull : Value → Bool
  isObject : Value → Bool
  get : (t : JsonType) → Value → Except ε t.El
  /-- The member of an object as a value of a type, or a default if it contains none. -/
  value : (t : JsonType) → Value → String → t.El → Except ε t.El
  parse : String → Except String Value
  dump : ℕ → Value → String

namespace JsonLibrary

variable {ε : Type}

/-- Members can be put into objects, and into null, which becomes one. -/
def Takes (lib : JsonLibrary ε) (j : lib.Value) : Prop := j = lib.null ∨ lib.isObject j = true

/-- What is put in is found, and what is written is read, also an octet as an `int`. -/
structure Lawful (lib : JsonLibrary ε) : Prop where
  find_null : ∀ key, lib.find lib.null key = none
  find_emptyObject : ∀ key, lib.find lib.emptyObject key = none
  isObject_emptyObject : lib.isObject lib.emptyObject = true
  find_set : ∀ j, lib.Takes j → ∀ key v other,
    lib.find (lib.set j key v) other = if key = other then some v else lib.find j other
  isObject_set : ∀ j, lib.Takes j → ∀ key v, lib.isObject (lib.set j key v) = true
  isNull_ofEl : ∀ t x, lib.isNull (lib.ofEl t x) = false
  get_ofEl : ∀ t x, lib.get t (lib.ofEl t x) = .ok x
  get_int_ofEl : ∀ n : UInt8, lib.get .int (lib.ofEl .uint8 n) = .ok (Int32.ofNat n.toNat)
  value_eq : ∀ t j key default, lib.isObject j = true →
    lib.value t j key default = ((lib.find j key).map (lib.get t)).getD (.ok default)

/-- The members are put in one after the other. -/
def setAll (lib : JsonLibrary ε) (j : lib.Value) (members : List (String × lib.Value)) : lib.Value :=
  members.foldl (fun j m => lib.set j m.1 m.2) j

/-- An object with the members that are put into it. -/
def objectOf (lib : JsonLibrary ε) (members : List (String × lib.Value)) : lib.Value :=
  lib.setAll lib.emptyObject members

/-- The last member of some list of members with a key. -/
def lastWith {V : Type} (key : String) : List (String × V) → Option V
  | [] => none
  | (k, v) :: members => (lastWith key members).or (if k = key then some v else none)

theorem lastWith_append {V : Type} (key : String) : ∀ members members' : List (String × V),
    lastWith key (members ++ members') = (lastWith key members').or (lastWith key members)
  | [], members' => by rw [List.nil_append, lastWith, Option.or_none]
  | (k, v) :: members, members' => by
    rw [List.cons_append, lastWith, lastWith_append key members members', lastWith, Option.or_assoc]

section Laws

variable {lib : JsonLibrary ε} (h : lib.Lawful)
include h

/-- Of members with one key, the last is found. -/
theorem find_setAll (key : String) : ∀ (members : List (String × lib.Value)) {j : lib.Value},
    lib.Takes j → lib.find (lib.setAll j members) key = (lastWith key members).or (lib.find j key)
  | [], j, _ => by rw [setAll, List.foldl_nil, lastWith, Option.none_or]
  | (k, v) :: members, j, hj => by
    have hrest := find_setAll key members (.inr (h.isObject_set j hj k v))
    rw [setAll] at hrest
    rw [setAll, List.foldl_cons, hrest, h.find_set j hj, lastWith, Option.or_assoc]
    congr 1
    split_ifs
    · rw [Option.some_or]
    · rw [Option.none_or]

theorem isObject_setAll : ∀ (members : List (String × lib.Value)) {j : lib.Value},
    lib.isObject j = true → lib.isObject (lib.setAll j members) = true
  | [], _, hj => hj
  | (k, v) :: members, j, hj => isObject_setAll members (h.isObject_set j (.inr hj) k v)

theorem find_objectOf (key : String) (members : List (String × lib.Value)) :
    lib.find (lib.objectOf members) key = lastWith key members := by
  rw [objectOf, find_setAll h key members (.inr h.isObject_emptyObject), h.find_emptyObject,
    Option.or_none]

theorem isObject_objectOf (members : List (String × lib.Value)) :
    lib.isObject (lib.objectOf members) = true :=
  isObject_setAll h members h.isObject_emptyObject

end Laws

end JsonLibrary

/-! ### Values -/

/-- An object is the list of its members in the order of their keys, so that equal objects are
written in the same way. -/
inductive Json
  | null
  | bool (b : Bool)
  | number (n : ℤ)
  | string (s : String)
  | object (members : List (String × Json))

namespace Json

/-- The member of some list of members with a key. -/
def lookup (key : String) : List (String × Json) → Option Json
  | [] => none
  | (k, v) :: members => if k = key then some v else lookup key members

def insert (key : String) (value : Json) : List (String × Json) → List (String × Json)
  | [] => [(key, value)]
  | (k, v) :: members =>
    if k = key then (key, value) :: members
    else if key < k then (key, value) :: (k, v) :: members
    else (k, v) :: insert key value members

/-- The member of an object with a key. -/
def find (key : String) : Json → Option Json
  | object members => lookup key members
  | null | bool _ | number _ | string _ => none

/-- The object with a member put in, which replaces one of that key. -/
def set (j : Json) (key : String) (value : Json) : Json :=
  match j with
  | object members => object (insert key value members)
  | null | bool _ | number _ | string _ => object [(key, value)]

def isNull : Json → Bool
  | null => true
  | bool _ | number _ | string _ | object _ => false

def isObject : Json → Bool
  | object _ => true
  | null | bool _ | number _ | string _ => false

/-- The number of a value: a Boolean is one or zero. -/
def number? : Json → Option ℤ
  | number n => some n
  | bool b => some (if b then 1 else 0)
  | null | string _ | object _ => none

def ofEl : (t : JsonType) → t.El → Json
  | .string, s => string s
  | .bool, b => bool b
  | .int, n => number n.toInt
  | .uint32, n => number n.toNat
  | .uint8, n => number n.toNat

def toEl : (t : JsonType) → Json → Option t.El
  | .string, string s => some s
  | .bool, bool b => some b
  | .int, j => j.number?.map Int32.ofInt
  | .uint32, j => j.number?.map fun n => UInt32.ofNat (n % 2 ^ 32).toNat
  | .uint8, j => j.number?.map fun n => UInt8.ofNat (n % 2 ^ 8).toNat
  | .string, _ => none
  | .bool, _ => none

variable {key other : String} {value : Json}

theorem lookup_insert_self : ∀ members, lookup key (insert key value members) = some value
  | [] => by simp [insert, lookup]
  | (k, v) :: members => by
    rw [insert]
    split_ifs with hk hlt
    · simp [lookup]
    · simp [lookup]
    · rw [lookup, if_neg hk, lookup_insert_self members]

theorem lookup_insert_of_ne (h : other ≠ key) :
    ∀ members, lookup other (insert key value members) = lookup other members
  | [] => by simp [insert, lookup, h.symm]
  | (k, v) :: members => by
    rw [insert]
    split_ifs with hk hlt
    · rw [lookup, lookup, if_neg h.symm, if_neg (by rw [hk]; exact h.symm)]
    · rw [lookup, if_neg h.symm]
    · rw [lookup, lookup, lookup_insert_of_ne h members]

theorem find_set (j : Json) :
    (j.set key value).find other = if key = other then some value else j.find other := by
  split_ifs with hkey
  · subst hkey
    cases j with
    | object members => exact lookup_insert_self members
    | null | bool | number | string => simp [set, find, lookup]
  · cases j with
    | object members => exact lookup_insert_of_ne (Ne.symm hkey) members
    | null | bool | number | string => simp [set, find, lookup, hkey]

theorem toEl_uint32 (n : UInt32) : toEl .uint32 (ofEl .uint32 n) = some n := by
  have hmod : ((n.toNat : ℤ) % 2 ^ 32).toNat = n.toNat := by
    have := n.toNat_lt
    omega
  show some (UInt32.ofNat ((n.toNat : ℤ) % 2 ^ 32).toNat) = some n
  rw [hmod, UInt32.ofNat_toNat]

theorem toEl_uint8 (n : UInt8) : toEl .uint8 (ofEl .uint8 n) = some n := by
  have hmod : ((n.toNat : ℤ) % 2 ^ 8).toNat = n.toNat := by
    have := n.toNat_lt
    omega
  show some (UInt8.ofNat ((n.toNat : ℤ) % 2 ^ 8).toNat) = some n
  rw [hmod, UInt8.ofNat_toNat]

theorem toEl_ofEl (t : JsonType) (x : t.El) : toEl t (ofEl t x) = some x := by
  cases t with
  | string => rfl
  | bool => rfl
  | int => exact congrArg some (Int32.ofInt_toInt x)
  | uint32 => exact toEl_uint32 x
  | uint8 => exact toEl_uint8 x

/-! ### Text -/

/-- Four hexadecimal digits. -/
def hexDigits (n : ℕ) : List Char :=
  List.replicate (4 - (Nat.toDigits 16 n).length) '0' ++ Nat.toDigits 16 n

def escapeChar (c : Char) : List Char :=
  if c = '"' then ['\\', '"']
  else if c = '\\' then ['\\', '\\']
  else if c = '\n' then ['\\', 'n']
  else if c = '\r' then ['\\', 'r']
  else if c = '\t' then ['\\', 't']
  else if c.toNat = 8 then ['\\', 'b']
  else if c.toNat = 12 then ['\\', 'f']
  else if c.toNat < 32 then ['\\', 'u'] ++ hexDigits c.toNat
  else [c]

def quote (s : String) : List Char := '"' :: s.toList.flatMap escapeChar ++ ['"']

mutual

/-- The text of a value in a line that is indented by `current`. -/
def dumpAt (indent current : ℕ) : Json → List Char
  | null => "null".toList
  | bool b => (if b then "true" else "false").toList
  | number n => (toString n).toList
  | string s => quote s
  | object [] => "\x7b\x7d".toList
  | object (m :: members) =>
    "\x7b\n".toList ++ dumpMembers indent (current + indent) (m :: members)
      ++ '\n' :: List.replicate current ' ' ++ "\x7d".toList

def dumpMembers (indent current : ℕ) : List (String × Json) → List Char
  | [] => []
  | (key, value) :: members =>
    List.replicate current ' ' ++ quote key ++ ": ".toList ++ dumpAt indent current value
      ++ (if members.isEmpty then [] else ",\n".toList) ++ dumpMembers indent current members

end

/-- The text of a value, with one member a line. -/
def dump (indent : ℕ) (j : Json) : String := String.ofList (dumpAt indent 0 j)

/-! ### The library -/

section Library

variable {ε : Type}

/-- The library of these values, with some reader of texts. -/
def library (typeError : ε) (parse : String → Except String Json) : JsonLibrary ε where
  Value := Json
  null := null
  emptyObject := object []
  ofEl := ofEl
  find j key := j.find key
  set := set
  isNull := isNull
  isObject := isObject
  get t j := (toEl t j).elim (.error typeError) .ok
  value t j key default :=
    if j.isObject then
      (j.find key).elim (.ok default) fun v => (toEl t v).elim (.error typeError) .ok
    else .error typeError
  parse := parse
  dump := dump

theorem lawful_library (typeError : ε) (parse : String → Except String Json) :
    (library typeError parse).Lawful where
  find_null _ := rfl
  find_emptyObject _ := rfl
  isObject_emptyObject := rfl
  find_set j _ _ _ _ := find_set j
  isObject_set j _ key v := by
    show (j.set key v).isObject = true
    cases j <;> rfl
  isNull_ofEl t _ := by cases t <;> rfl
  get_ofEl t x := by
    show (toEl t (ofEl t x)).elim _ _ = _
    rw [toEl_ofEl]
    rfl
  get_int_ofEl _ := rfl
  value_eq t j key default hj := by
    have hobject : Json.isObject j = true := hj
    show (if Json.isObject j = true then _ else _) = ((Json.find key j).map _).getD _
    rw [if_pos hobject]
    cases Json.find key j <;> rfl

end Library

end Json

end NimRtc
