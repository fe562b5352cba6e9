import NimRtc.Assembly
import NimRtc.Lib.Checked

/-!
# Reading profiles back

Each part of a profile is read back from its own JSON, but for the parameters of the estimator and
the scheduler that are not written. What is left is the transport block, whose condition looks at
three of its fields: if none of them is set, the others are lost with it.
-/

namespace NimRtc

namespace Assembly

open JsonLibrary Checked

theorem toUint8_ofNat (n : UInt8) : toUint8 (Int32.ofNat n.toNat) = n := by
  have hn := n.toNat_lt
  have hint : (Int32.ofNat n.toNat).toInt = n.toNat := Int32.toInt_ofNat_of_lt (by omega)
  have hmod : ((n.toNat : ℤ) % 2 ^ 8).toNat = n.toNat := by omega
  rw [toUint8, hint, hmod, UInt8.ofNat_toNat]

theorem stringToJitterBufferMode_toString (mode : JitterBufferMode) :
    stringToJitterBufferMode (jitterBufferModeToString mode) = mode := by
  cases mode <;> rfl

theorem stringToSchedulerStrategy_toString (strategy : Strategy) :
    stringToSchedulerStrategy (schedulerStrategyToString strategy) = strategy := by
  cases strategy <;> rfl

theorem resolveSchedulerImpl_ne (sc : SchedulerConfig) : resolveSchedulerImpl sc ≠ "" := by
  unfold resolveSchedulerImpl
  split_ifs with himpl
  · exact himpl
  · cases sc.strategy <;> simp [defaultImplFor]

variable {lib : JsonLibrary ProfileError} (h : lib.Lawful)

/-! ### What is put in -/

theorem lastWith_ofOptional (key key' : String) (n : Option Int32) :
    lastWith key (ofOptional lib key' n) = if key' = key then n.map (lib.ofEl .int) else none := by
  cases n with
  | none => simp [ofOptional, lastWith]
  | some n => simp [ofOptional, lastWith]

theorem lastWith_ofNonempty (key key' s : String) :
    lastWith key (ofNonempty lib key' s)
      = if key' = key then if s = "" then none else some (lib.ofEl .string s) else none := by
  by_cases hs : s = ""
  · simp [ofNonempty, hs, lastWith]
  · simp [ofNonempty, hs, lastWith]

/-- An object whose members are the last ones of a list. -/
structure Holds (lib : JsonLibrary ProfileError) (j : lib.Value) (members : List (String × lib.Value)) :
    Prop where
  isObject : lib.isObject j = true
  find : ∀ key, lib.find j key = lastWith key members

section Lawful

include h

theorem holds_objectOf (members : List (String × lib.Value)) :
    Holds lib (lib.objectOf members) members :=
  ⟨isObject_objectOf h members, fun key => find_objectOf h key members⟩

theorem holds_setAll_null {members : List (String × lib.Value)} (hne : members ≠ []) :
    Holds lib (lib.setAll lib.null members) members where
  isObject := by
    obtain ⟨m, rest, rfl⟩ := List.exists_cons_of_ne_nil hne
    exact isObject_setAll h rest (h.isObject_set lib.null (.inl rfl) m.1 m.2)
  find key := by rw [find_setAll h key members (.inl rfl), h.find_null, Option.or_none]

theorem stringValue_eq (j : lib.Value) (key default : String) :
    stringValue lib j key default = lib.value .string j key default := by
  rw [stringValue]
  cases lib.value .string j key default with
  | error e => rfl
  | ok s =>
    rw [ok_bind, jsonToString, h.isNull_ofEl, if_neg Bool.false_ne_true]
    exact h.get_ofEl .string s

section Members

variable {j : lib.Value} {members : List (String × lib.Value)} (hj : Holds lib j members)
include hj

theorem value_of_holds (t : JsonType) (key : String) (default : t.El) :
    lib.value t j key default = ((lastWith key members).map (lib.get t)).getD (.ok default) := by
  rw [h.value_eq t j key default hj.isObject, hj.find]

omit h

theorem optional_of_holds (key : String) : optional lib j key
    = ((lastWith key members).map fun v => some <$> lib.get .int v).getD (.ok none) := by
  rw [optional, hj.find]
  cases lastWith key members <;> rfl

theorem readPart_of_holds {α : Type} (read : lib.Value → Except ProfileError α) (key : String)
    (default : α) : readPart lib read j key default
      = (((lastWith key members).filter lib.isObject).map read).getD (.ok default) := by
  rw [readPart, findObject, hj.find]
  cases (lastWith key members).filter lib.isObject <;> rfl

end Members

theorem optional_ofInt (n : Option Int32) :
    ((n.map (lib.ofEl .int)).map fun v => some <$> lib.get .int v).getD (.ok none) = .ok n := by
  cases n with
  | none => rfl
  | some n =>
    have hget : lib.get .int (lib.ofEl .int n) = .ok n := h.get_ofEl .int n
    simp only [Option.map_some, Option.getD_some, hget]
    rfl

/-- A text that is not written when it is empty. -/
theorem string_nonempty (s : String) :
    ((if s = "" then none else some (lib.ofEl .string s)).map (lib.get .string)).getD (.ok "")
      = .ok s := by
  by_cases hs : s = ""
  · rw [if_pos hs, hs]
    rfl
  · rw [if_neg hs]
    exact h.get_ofEl .string s

/-! ### The parts -/

theorem bweFromJson_bweToJson (b : BweConfig) :
    bweFromJson lib (bweToJson lib b)
      = .ok { impl := b.impl
              params := { initialBitrateBps := b.params.initialBitrateBps
                          maxBitrateBps := b.params.maxBitrateBps } } := by
  have hj : Holds lib (bweToJson lib b) _ := holds_objectOf h _
  simp only [bweFromJson, stringValue_eq h, value_of_holds h hj, lastWith, String.reduceEq, reduceIte,
    Option.or_none, Option.none_or, Option.map_some, Option.getD_some, h.get_ofEl, ok_bind]
  rfl

theorem jitterBufferFromJson_jitterBufferToJson (jb : JitterBufferConfig) :
    jitterBufferFromJson lib (jitterBufferToJson lib jb) = .ok jb := by
  have hj : Holds lib (jitterBufferToJson lib jb) _ := holds_objectOf h _
  simp only [jitterBufferFromJson, stringValue_eq h, value_of_holds h hj, lastWith, String.reduceEq,
    reduceIte, Option.or_none, Option.none_or, Option.map_some, Option.getD_some, h.get_ofEl, ok_bind,
    stringToJitterBufferMode_toString]
  rfl

theorem mediaFromJson_mediaToJson (m : TransportStackConfig) :
    mediaFromJson lib (mediaToJson lib m) = .ok m := by
  have hj : Holds lib (mediaToJson lib m) _ := holds_objectOf h _
  simp only [mediaFromJson, stringValue_eq h, value_of_holds h hj, optional_of_holds hj,
    lastWith_append, lastWith_ofOptional, lastWith, String.reduceEq, reduceIte, Option.or_none,
    Option.none_or, Option.map_some, Option.getD_some, h.get_ofEl, ok_bind, optional_ofInt h]
  rfl

theorem controlFromJson_controlToJson (c : TransportControlConfig) :
    controlFromJson lib (controlToJson lib c) = .ok c := by
  have hj : Holds lib (controlToJson lib c) _ := holds_objectOf h _
  simp only [controlFromJson, stringValue_eq h, value_of_holds h hj, optional_of_holds hj,
    lastWith_append, lastWith_ofOptional, lastWith_ofNonempty, lastWith, String.reduceEq, reduceIte,
    Option.or_none, Option.none_or, Option.map_some, Option.getD_some, h.get_ofEl, ok_bind,
    optional_ofInt h, string_nonempty h]
  rfl

theorem paramsFromJson_paramsToJson (ps : Plugins.SchedulerConfig) :
    paramsFromJson lib (paramsToJson lib ps) = .ok { ps with enabled := false } := by
  have hj : Holds lib (paramsToJson lib ps) _ := holds_objectOf h _
  simp only [paramsFromJson, value_of_holds h hj, lastWith, String.reduceEq, reduceIte,
    Option.or_none, Option.none_or, Option.map_some, Option.getD_some, h.get_ofEl, ok_bind]
  rfl

theorem schedulerFromJson_schedulerToJson (sc : SchedulerConfig) :
    schedulerFromJson lib (schedulerToJson lib sc)
      = .ok { sc with impl := resolveSchedulerImpl sc
                      params := { sc.params with enabled := false } } := by
  have hj : Holds lib (schedulerToJson lib sc) _ := holds_objectOf h _
  have hparams : lib.isObject (paramsToJson lib sc.params) = true := isObject_objectOf h _
  have himpl : resolveSchedulerImpl sc ≠ "" := resolveSchedulerImpl_ne sc
  simp only [schedulerFromJson, stringValue_eq h, value_of_holds h hj, readPart_of_holds hj, lastWith,
    String.reduceEq, reduceIte, Option.or_none, Option.none_or, Option.map_some, Option.getD_some,
    h.get_ofEl, h.get_int_ofEl, ok_bind, stringToSchedulerStrategy_toString, toUint8_ofNat,
    Option.filter_some, hparams, paramsFromJson_paramsToJson h, if_neg himpl]
  rfl

theorem transportFromJson_emitted (t : TransportSection) {root : lib.Value}
    {members : List (String × lib.Value)} (hroot : Holds lib root members)
    (hlast : lastWith "transport" members = some (transportToJson lib t)) :
    transportFromJson lib root = .ok t := by
  have hj : Holds lib (transportToJson lib t) _ := holds_objectOf h _
  have hmedia : lib.isObject (mediaToJson lib t.media) = true := isObject_objectOf h _
  have hcontrol : lib.isObject (controlToJson lib t.control) = true := isObject_objectOf h _
  simp only [transportFromJson, readPart_of_holds hroot, hlast, Option.filter_some, hj.isObject,
    reduceIte, Option.map_some, Option.getD_some]
  simp only [stringValue_eq h, value_of_holds h hj, readPart_of_holds hj, lastWith_append,
    lastWith_ofNonempty, lastWith, String.reduceEq, reduceIte, Option.or_none, Option.none_or,
    Option.map_some, Option.getD_some, string_nonempty h, Option.filter_some, hmedia, hcontrol,
    mediaFromJson_mediaToJson h, controlFromJson_controlToJson h, ok_bind]
  rfl

omit h in
theorem transportFromJson_missing {root : lib.Value} {members : List (String × lib.Value)}
    (hroot : Holds lib root members) (hlast : lastWith "transport" members = none) :
    transportFromJson lib root = .ok {} := by
  simp only [transportFromJson, readPart_of_holds hroot, hlast]
  rfl

/-! ### The whole -/

/-- What is left of a profile. -/
def Profile.readBack (p : Profile) : Profile :=
  { p with
    bwe := { impl := p.bwe.impl
             params := { initialBitrateBps := p.bwe.params.initialBitrateBps
                         maxBitrateBps := p.bwe.params.maxBitrateBps } }
    scheduler := { p.scheduler with
      impl := resolveSchedulerImpl p.scheduler
      params := { p.scheduler.params with enabled := false } }
    transport := if p.transport.Emitted then p.transport else {} }

theorem transport_profileToJson (p : Profile) :
    transportFromJson lib (profileToJson lib p)
      = .ok (if p.transport.Emitted then p.transport else {}) := by
  have hroot : Holds lib (profileToJson lib p) _ :=
    holds_setAll_null h (List.append_ne_nil_of_left_ne_nil (List.cons_ne_nil _ _) _)
  by_cases hemitted : p.transport.Emitted
  · rw [if_pos hemitted] at hroot
    rw [if_pos hemitted]
    refine transportFromJson_emitted h p.transport hroot ?_
    rw [lastWith_append]
    rfl
  · rw [if_neg hemitted, List.append_nil] at hroot
    rw [if_neg hemitted]
    refine transportFromJson_missing hroot ?_
    simp only [lastWith, String.reduceEq, reduceIte, Option.or_none]

theorem profileFromJson_profileToJson (p : Profile) :
    profileFromJson lib (profileToJson lib p) = .ok p.readBack := by
  have hroot : Holds lib (profileToJson lib p) _ :=
    holds_setAll_null h (List.append_ne_nil_of_left_ne_nil (List.cons_ne_nil _ _) _)
  have htransport := transport_profileToJson h p
  have hbwe : lib.isObject (bweToJson lib p.bwe) = true := isObject_objectOf h _
  have hjb : lib.isObject (jitterBufferToJson lib p.jitterBuffer) = true := isObject_objectOf h _
  have hsc : lib.isObject (schedulerToJson lib p.scheduler) = true := isObject_objectOf h _
  have hrest : ∀ key, key ≠ "transport" → lastWith key (if p.transport.Emitted then
      [("transport", transportToJson lib p.transport)] else []) = none := by
    intro key hkey
    split_ifs
    · simp [lastWith, hkey.symm]
    · rfl
  rw [profileFromJson, htransport]
  simp only [stringValue_eq h, value_of_holds h hroot, readPart_of_holds hroot, lastWith_append, ne_eq,
    String.reduceEq, not_false_eq_true, hrest, lastWith, reduceIte, Option.or_none, Option.none_or,
    Option.map_some, Option.getD_some, Option.filter_some, hbwe, hjb, hsc, h.get_ofEl, h.get_int_ofEl,
    bweFromJson_bweToJson h, jitterBufferFromJson_jitterBufferToJson h,
    schedulerFromJson_schedulerToJson h, ok_bind, toUint8_ofNat]
  rfl

end Lawful

theorem readBack_eq_iff {p : Profile} (h : p.DefaultBwe) : p.readBack = p.resolved ↔ p.Kept := by
  have hbwe : BweConfig.mk p.bwe.impl { initialBitrateBps := p.bwe.params.initialBitrateBps
                                        maxBitrateBps := p.bwe.params.maxBitrateBps } = p.bwe := by
    rw [← h]
  have htransport : (if p.transport.Emitted then p.transport else {}) = p.transport
      ↔ p.transport = {} ∨ p.transport.Emitted := by
    split_ifs with hemitted
    · exact iff_of_true rfl (.inr hemitted)
    · exact ⟨fun heq => .inl heq.symm, fun heq => (heq.resolve_right hemitted).symm⟩
  rw [Profile.Kept, ← htransport]
  constructor
  · intro heq
    exact ⟨congrArg Profile.transport heq,
      (congrArg (fun q : Profile => q.scheduler.params.enabled) heq).symm⟩
  · rintro ⟨hkept, henabled⟩
    have hparams : { p.scheduler.params with enabled := false } = p.scheduler.params := by
      rw [← henabled]
    rw [Profile.readBack, Profile.resolved, hbwe, hkept, hparams]

/-- What is written is read back exactly when the transport block is written or says nothing, and
the switch that is not written is off. -/
theorem profile_round_trip_iff (lib : JsonLibrary ProfileError) (h : lib.Lawful) (filePath : String)
    (p : Profile) (hbwe : p.DefaultBwe)
    (hparse : lib.parse (profileToJsonString lib p) = .ok (profileToJson lib p)) :
    profileFromJsonFile lib filePath (some (profileToJsonString lib p)) = .ok p.resolved
      ↔ p.Kept := by
  rw [← readBack_eq_iff hbwe, profileFromJsonFile]
  simp only [hparse, profileFromJson_profileToJson h, Except.ok.injEq]

/-- The library of JSON values with a reader that knows the text of one profile. -/
def jsonOf (p : Profile) : JsonLibrary ProfileError :=
  let writer := Json.library .typeError fun _ => .error "parse error"
  Json.library .typeError fun text =>
    if text = profileToJsonString writer p then .ok (profileToJson writer p)
    else .error "parse error"

theorem lawful_jsonOf (p : Profile) : (jsonOf p).Lawful := Json.lawful_library _ _

theorem parse_jsonOf (p : Profile) :
    (jsonOf p).parse (profileToJsonString (jsonOf p) p) = .ok (profileToJson (jsonOf p) p) := if_pos rfl

/-- All fields of the transport block are set. -/
def pinnedTransport : Profile where
  name := "pinned"
  bwe := { impl := "goog-cc", params := { maxBitrateBps := 4000000 } }
  scheduler := { strategy := .weightedFair, impl := "", audioWeight := 200 }
  transport :=
    { strategy := "split"
      media := { stack := "ice-dtls", maxP99Ms := some 50 }
      control := { enabled := true, stack := "quic", maxP99Ms := some 20, freqHz := some 100,
                   reliability := "partial", ttlMs := some (-1) } }

theorem profile_round_trip_iff_pinned :
    profileFromJsonFile (jsonOf pinnedTransport) "profile.json"
        (some (profileToJsonString (jsonOf pinnedTransport) pinnedTransport))
      = .ok { pinnedTransport with
                scheduler := { strategy := .weightedFair, impl := "weighted_fair",
                               audioWeight := 200 } } :=
  (profile_round_trip_iff (jsonOf pinnedTransport) (lawful_jsonOf _) "profile.json" pinnedTransport rfl
    (parse_jsonOf _)).2 ⟨.inr (by decide), rfl⟩

/-- A budget for the media is lost when nothing else is set. -/
theorem media_budget_lost : ¬ ∀ (lib : JsonLibrary ProfileError) (filePath : String) (p : Profile),
    lib.Lawful → p.DefaultBwe →
      lib.parse (profileToJsonString lib p) = .ok (profileToJson lib p) →
        profileFromJsonFile lib filePath (some (profileToJsonString lib p)) = .ok p.resolved := by
  intro hall
  have h := hall (jsonOf { transport := { media := { maxP99Ms := some 50 } } }) "profile.json"
    { transport := { media := { maxP99Ms := some 50 } } } (lawful_jsonOf _) rfl (parse_jsonOf _)
  rw [profileFromJsonFile] at h
  simp only [parse_jsonOf, profileFromJson_profileToJson (lawful_jsonOf _), Except.ok.injEq] at h
  have hmax := congrArg (fun q : Profile => q.transport.media.maxP99Ms) h
  revert hmax
  decide

end Assembly

end NimRtc
