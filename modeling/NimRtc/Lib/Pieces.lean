import NimRtc.Lib.Buffer

/-!
# Putting a list together from pieces

Pieces of a list arrive in any order, may overlap and may be empty. They are copied to their places in
a buffer, and a bitmap of the same size marks the places that have been filled. The list is there as
soon as no place is left.
-/

namespace NimRtc

namespace Pieces

structure Piece where
  off : ℕ
  len : ℕ
  deriving DecidableEq, Repr

def Piece.Has (p : Piece) (i : ℕ) : Prop := p.off ≤ i ∧ i < p.off + p.len

instance (p : Piece) (i : ℕ) : Decidable (p.Has i) := inferInstanceAs (Decidable (_ ∧ _))

/-- The pieces have all of `n` places. -/
def Covers (ps : List Piece) (n : ℕ) : Prop := ∀ i < n, ∃ p ∈ ps, p.Has i

instance (ps : List Piece) (n : ℕ) : Decidable (Covers ps n) :=
  inferInstanceAs (Decidable (∀ i < n, ∃ p ∈ ps, p.Has i))

theorem not_covers_nil {n : ℕ} (h : 0 < n) : ¬ Covers [] n := fun hc => by
  obtain ⟨p, hp, -⟩ := hc 0 h
  exact List.not_mem_nil hp

variable {α : Type*} {whole body : List α} {received : List Bool} {ps : List Piece} {p : Piece}

def Piece.of (p : Piece) (whole : List α) : List α := (whole.drop p.off).take p.len

theorem Piece.length_of (h : p.off + p.len ≤ whole.length) : (p.of whole).length = p.len := by
  rw [Piece.of, List.length_take, List.length_drop]
  omega

/-- The buffer and the bitmap hold these pieces of the whole. -/
structure Holds (whole : List α) (ps : List Piece) (body : List α) (received : List Bool) : Prop where
  length_body : body.length = whole.length
  length_received : received.length = whole.length
  received : ∀ i < whole.length, received[i]? = some true ↔ ∃ p ∈ ps, p.Has i
  body : ∀ i < whole.length, (∃ p ∈ ps, p.Has i) → body[i]? = whole[i]?

theorem Holds.init {fill : α} :
    Holds whole [] (List.replicate whole.length fill) (List.replicate whole.length false) where
  length_body := List.length_replicate
  length_received := List.length_replicate
  received i hi := by simp [hi]
  body i hi h := by simp at h

/-- A piece is copied in. -/
theorem Holds.write (h : Holds whole ps body received) (hp : p.off + p.len ≤ whole.length) :
    Holds whole (ps ++ [p]) (Buffer.write body p.off (p.of whole))
      (Buffer.write received p.off (List.replicate p.len true)) := by
  have hlen := Piece.length_of hp
  have hbody : p.off + (p.of whole).length ≤ body.length := by rw [hlen, h.length_body]; exact hp
  have hreceived : p.off + (List.replicate p.len true).length ≤ received.length := by
    rw [List.length_replicate, h.length_received]
    exact hp
  have hmore : ∀ i, (∃ q ∈ ps ++ [p], q.Has i) ↔ (∃ q ∈ ps, q.Has i) ∨ p.Has i := by
    intro i
    simp [or_and_right, exists_or]
  refine ⟨?_, ?_, fun i hi => ?_, fun i hi hq => ?_⟩
  · rw [Buffer.length_write hbody, h.length_body]
  · rw [Buffer.length_write hreceived, h.length_received]
  · rw [Buffer.getElem?_write hreceived, hmore, List.length_replicate]
    by_cases hin : p.off ≤ i ∧ i < p.off + p.len
    · rw [if_pos hin, List.getElem?_replicate, if_pos (by omega)]
      exact iff_of_true rfl (.inr hin)
    · rw [if_neg hin, h.received i hi]
      exact ⟨.inl, fun hq => hq.resolve_right hin⟩
  · rw [Buffer.getElem?_write hbody, hlen]
    by_cases hin : p.off ≤ i ∧ i < p.off + p.len
    · rw [if_pos hin, Piece.of, List.getElem?_take_of_lt (by omega), List.getElem?_drop]
      congr 1
      omega
    · rw [if_neg hin]
      exact h.body i hi (((hmore i).1 hq).resolve_right hin)

/-- All places are marked exactly if the pieces have all of them. -/
theorem Holds.all_received (h : Holds whole ps body received) :
    received.all id = true ↔ Covers ps whole.length := by
  rw [List.all_eq_true]
  constructor
  · intro hall i hi
    have hlt : i < received.length := by rw [h.length_received]; exact hi
    refine (h.received i hi).1 ?_
    rw [List.getElem?_eq_getElem hlt]
    exact congrArg some (hall _ (List.getElem_mem hlt))
  · intro hc b hb
    obtain ⟨i, hlt, rfl⟩ := List.getElem_of_mem hb
    have hi : i < whole.length := by rw [← h.length_received]; exact hlt
    have hset := (h.received i hi).2 (hc i hi)
    rw [List.getElem?_eq_getElem hlt] at hset
    exact Option.some.inj hset

theorem Holds.body_eq (h : Holds whole ps body received) (hc : Covers ps whole.length) :
    body = whole := by
  refine List.ext_getElem? fun i => ?_
  by_cases hi : i < whole.length
  · exact h.body i hi (hc i hi)
  · rw [List.getElem?_eq_none (by rw [h.length_body]; omega), List.getElem?_eq_none (by omega)]

end Pieces

end NimRtc
