import NimRtc.Lib.Checked

/-!
# Loops that copy elements

A loop that copies one element per round is the list of its moves, nested loops and loops over rows
included. As long as no place is written from two sources, each place that is written holds its source
in the end and every other place is as before.
-/

namespace NimRtc

/-- `dst[to] = src[from]`. -/
structure Move where
  src : ℕ
  dst : ℕ
  deriving DecidableEq, Repr

namespace Checked

universe u v

variable {ε : Type u} {α : Type v}

def copyAll (readFault writeFault : ℕ → ε) (src : List α) : List Move → List α → Except ε (List α)
  | [], dst => .ok dst
  | m :: ms, dst => do
    let x ← get (readFault m.src) src m.src
    let dst ← set (writeFault m.dst) dst m.dst x
    copyAll readFault writeFault src ms dst

variable {readFault writeFault : ℕ → ε} {src dst : List α}

/-- What is left when the moves are done. -/
structure Copied (src : List α) (ms : List Move) (dst out : List α) : Prop where
  length : out.length = dst.length
  moved : ∀ m ∈ ms, out[m.dst]? = src[m.src]?
  kept : ∀ k, (∀ m ∈ ms, m.dst ≠ k) → out[k]? = dst[k]?

theorem copyAll_spec (readFault writeFault : ℕ → ε) (src : List α) :
    ∀ (ms : List Move) (dst : List α), (∀ m ∈ ms, m.src < src.length) →
    (∀ m ∈ ms, m.dst < dst.length) →
    (∀ m ∈ ms, ∀ m' ∈ ms, m.dst = m'.dst → m.src = m'.src) →
    ∃ out, copyAll readFault writeFault src ms dst = .ok out ∧ Copied src ms dst out
  | [], dst, _, _, _ => ⟨dst, rfl, rfl, fun m hm => absurd hm List.not_mem_nil, fun _ _ => rfl⟩
  | m :: ms, dst, hread, hwrite, hfun => by
    have hm := hread m List.mem_cons_self
    have hset : set (writeFault m.dst) dst m.dst src[m.src] = .ok (dst.set m.dst src[m.src]) :=
      if_pos (hwrite m List.mem_cons_self)
    obtain ⟨out, hout, h⟩ := copyAll_spec readFault writeFault src ms (dst.set m.dst src[m.src])
      (fun m' hm' => hread m' (List.mem_cons_of_mem _ hm'))
      (fun m' hm' => by rw [List.length_set]; exact hwrite m' (List.mem_cons_of_mem _ hm'))
      (fun m' hm' m'' hm'' => hfun m' (List.mem_cons_of_mem _ hm') m'' (List.mem_cons_of_mem _ hm''))
    refine ⟨out, ?_, h.length.trans List.length_set, fun m' hm' => ?_, fun k hk => ?_⟩
    · rw [copyAll, get_of_lt hm, ok_bind, hset, ok_bind, hout]
    · rcases List.mem_cons.1 hm' with rfl | hm'
      · by_cases hlater : ∃ m'' ∈ ms, m''.dst = m'.dst
        · obtain ⟨m'', hm'', hdst⟩ := hlater
          rw [← hdst, h.moved m'' hm'', hfun m'' (List.mem_cons_of_mem _ hm'') m' List.mem_cons_self hdst]
        · rw [h.kept m'.dst fun m'' hm'' hdst => hlater ⟨m'', hm'', hdst⟩,
            List.getElem?_set_self (hwrite m' List.mem_cons_self), List.getElem?_eq_getElem hm]
      · exact h.moved m' hm'
    · rw [h.kept k fun m' hm' => hk m' (List.mem_cons_of_mem _ hm'),
        List.getElem?_set_ne (hk m List.mem_cons_self)]

/-- What is left does not depend on the order of the moves. -/
theorem Copied.ext {ms ms' : List Move} {out out' : List α} (h : Copied src ms dst out)
    (h' : Copied src ms' dst out') (hmem : ∀ m, m ∈ ms ↔ m ∈ ms') : out = out' := by
  refine List.ext_getElem? fun k => ?_
  by_cases hk : ∃ m ∈ ms, m.dst = k
  · obtain ⟨m, hm, rfl⟩ := hk
    rw [h.moved m hm, h'.moved m ((hmem m).1 hm)]
  · have hnot : ∀ m ∈ ms, m.dst ≠ k := fun m hm heq => hk ⟨m, hm, heq⟩
    rw [h.kept k hnot, h'.kept k fun m hm => hnot m ((hmem m).2 hm)]

/-- Places that are copied to other ones and back are what they were. -/
theorem copyAll_back (readFault writeFault : ℕ → ε) {τ : Type*} {tags : List τ} {here there : τ → ℕ} {mid : List α}
    (hsrc : ∀ t ∈ tags, here t < src.length) (hmid : ∀ t ∈ tags, there t < mid.length)
    (hdst : ∀ t ∈ tags, here t < dst.length)
    (hhere : ∀ t ∈ tags, ∀ t' ∈ tags, here t = here t' → t = t')
    (hthere : ∀ t ∈ tags, ∀ t' ∈ tags, there t = there t' → t = t') :
    ∃ mid' out,
      copyAll readFault writeFault src (tags.map fun t => ⟨here t, there t⟩) mid = .ok mid'
        ∧ copyAll readFault writeFault mid' (tags.map fun t => ⟨there t, here t⟩) dst = .ok out
        ∧ ∀ t ∈ tags, out[here t]? = src[here t]? := by
  obtain ⟨mid', hmid', hcopied⟩ := copyAll_spec readFault writeFault src
    (tags.map fun t => ⟨here t, there t⟩) mid
    (fun m hm => by
      obtain ⟨t, ht, rfl⟩ := List.mem_map.1 hm
      exact hsrc t ht)
    (fun m hm => by
      obtain ⟨t, ht, rfl⟩ := List.mem_map.1 hm
      exact hmid t ht)
    (fun m hm m' hm' heq => by
      obtain ⟨t, ht, rfl⟩ := List.mem_map.1 hm
      obtain ⟨t', ht', rfl⟩ := List.mem_map.1 hm'
      rw [hthere t ht t' ht' heq])
  obtain ⟨out, hout, hback⟩ := copyAll_spec readFault writeFault mid'
    (tags.map fun t => ⟨there t, here t⟩) dst
    (fun m hm => by
      obtain ⟨t, ht, rfl⟩ := List.mem_map.1 hm
      rw [hcopied.length]
      exact hmid t ht)
    (fun m hm => by
      obtain ⟨t, ht, rfl⟩ := List.mem_map.1 hm
      exact hdst t ht)
    (fun m hm m' hm' heq => by
      obtain ⟨t, ht, rfl⟩ := List.mem_map.1 hm
      obtain ⟨t', ht', rfl⟩ := List.mem_map.1 hm'
      rw [hhere t ht t' ht' heq])
  refine ⟨mid', out, hmid', hout, fun t ht => ?_⟩
  rw [hback.moved ⟨there t, here t⟩ (List.mem_map.2 ⟨t, ht, rfl⟩),
    hcopied.moved ⟨here t, there t⟩ (List.mem_map.2 ⟨t, ht, rfl⟩)]

end Checked

end NimRtc

/-!
## Loops that write elements

A loop that writes one element per round is the list of its writes, nested loops included. What a place
holds in the end is what was written to it last.
-/

namespace NimRtc

/-- `xs[pos] = value`. -/
structure Put (α : Type*) where
  pos : ℕ
  value : α
  deriving DecidableEq, Repr

namespace Checked

universe u v

variable {ε : Type u} {α : Type v}

def putAll (fault : ℕ → ε) : List (Put α) → List α → Except ε (List α)
  | [], xs => .ok xs
  | p :: ps, xs => do
    let xs ← set (fault p.pos) xs p.pos p.value
    putAll fault ps xs

/-- What is written to a place last. -/
def lastPut (k : ℕ) : List (Put α) → Option α
  | [] => none
  | p :: ps => (lastPut k ps).or (if p.pos = k then some p.value else none)

variable {fault : ℕ → ε} {ps qs : List (Put α)} {xs : List α} {k : ℕ} {x : α}

theorem lastPut_append : lastPut k (ps ++ qs) = (lastPut k qs).or (lastPut k ps) := by
  induction ps with
  | nil => rw [List.nil_append, lastPut, Option.or_none]
  | cons p ps ih => rw [List.cons_append, lastPut, ih, lastPut, Option.or_assoc]

theorem lastPut_eq_none (h : ∀ p ∈ ps, p.pos ≠ k) : lastPut k ps = none := by
  induction ps with
  | nil => rfl
  | cons p ps ih =>
    rw [List.forall_mem_cons] at h
    rw [lastPut, ih h.2, if_neg h.1]
    rfl

theorem exists_lastPut (hex : ∃ p ∈ ps, p.pos = k) :
    ∃ p ∈ ps, p.pos = k ∧ lastPut k ps = some p.value := by
  induction ps with
  | nil =>
    obtain ⟨p, hp, -⟩ := hex
    cases hp
  | cons p ps ih =>
    rw [lastPut]
    by_cases hlater : ∃ q ∈ ps, q.pos = k
    · obtain ⟨q, hq, heq, hlast⟩ := ih hlater
      exact ⟨q, List.mem_cons_of_mem _ hq, heq, by rw [hlast, Option.some_or]⟩
    · have hnot : ∀ q ∈ ps, q.pos ≠ k := fun q hq heq => hlater ⟨q, hq, heq⟩
      obtain ⟨q, hq, heq⟩ := hex
      rcases List.mem_cons.1 hq with rfl | hq
      · refine ⟨q, List.mem_cons_self, heq, ?_⟩
        rw [lastPut_eq_none hnot, if_pos heq]
        rfl
      · exact absurd heq (hnot q hq)

/-- All that is written to a place is the same. -/
theorem lastPut_eq_some (hex : ∃ p ∈ ps, p.pos = k) (hval : ∀ p ∈ ps, p.pos = k → p.value = x) :
    lastPut k ps = some x := by
  obtain ⟨p, hp, heq, hlast⟩ := exists_lastPut hex
  rw [hlast, hval p hp heq]

theorem putAll_spec (fault : ℕ → ε) : ∀ (ps : List (Put α)) (xs : List α),
    (∀ p ∈ ps, p.pos < xs.length) →
    ∃ out, putAll fault ps xs = .ok out ∧ out.length = xs.length
      ∧ ∀ k, out[k]? = (lastPut k ps).or xs[k]?
  | [], xs, _ => ⟨xs, rfl, rfl, fun k => rfl⟩
  | p :: ps, xs, h => by
    have hp := h p List.mem_cons_self
    have hset : set (fault p.pos) xs p.pos p.value = .ok (xs.set p.pos p.value) := if_pos hp
    obtain ⟨out, hout, hlength, hplace⟩ := putAll_spec fault ps (xs.set p.pos p.value)
      fun q hq => by
        rw [List.length_set]
        exact h q (List.mem_cons_of_mem _ hq)
    refine ⟨out, by rw [putAll, hset, ok_bind, hout], hlength.trans List.length_set, fun k => ?_⟩
    rw [hplace, lastPut, Option.or_assoc]
    congr 1
    split_ifs with heq
    · subst heq
      rw [List.getElem?_set_self hp, Option.some_or]
    · rw [List.getElem?_set_ne heq, Option.none_or]

end Checked

end NimRtc
