import RzProxy.Processor.Texts

/-!
# The positions of the rate features

A bit of a mask means the rate feature at its position in the list that the server sends. The list
is split, trimmed and filtered when it is received: entries that are empty are left out, and those
after them move to lower bits.

## Main definitions

* `Env.setCodecs`: `set_codecs`, on the `OnceCell` of the environment
* `entriesOf`, `namedFeatures`: the entries of the server's text, and those that a mask names
* `Reports`: the helpers give the names for a mask
* `Gapless`: no empty entry is followed by another

## Main results

* `decodeGetCodecsResponse_eq`: the features that are kept
* `reports_iff_gapless`: features keep their positions exactly in a text without gaps
-/

namespace RzProxy

open ByteString Evaluation Evaluation.Flow JsonText

/-! ## The features that are kept -/

/-- `set_codecs`: a `OnceCell` is set once. -/
def Env.setCodecs (env : Env) (codecs : Codecs) : Except RZError Env :=
  match env.rateFeatures with
  | some _ => .error (.internal "Failed to set RATE_FEATURES")
  | none => .ok { env with rateFeatures := some codecs.rateFeatures }

/-- The entries of a text, between its commas and trimmed. -/
def entriesOf (T : String) : List String :=
  (T.toList.splitOn ',').map fun s => String.ofList (trim s)

/-- The reply to GETCODECS, with one field of type `0x09`. -/
theorem decodeGetCodecsResponse_eq {payload rest rest' : Bytes} {T : String}
    (hhead : takeHead payload = some (utf8 "SUCCESS", 1, rest))
    (hfield : takeField rest = some (⟨1, 0x09, utf8 T⟩, rest')) :
    decodeGetCodecsResponse payload = .ok (.ok ⟨(entriesOf T).filter fun s => s ≠ ""⟩) := by
  simp only [decodeGetCodecsResponse, returnIf_bind]
  rcases readStatus_eq (.error (.internal "empty payload for GETCODECS") : Except RZError Codecs)
      (.error (.internal "payload too short for status + field count")) payload with
    ⟨rfl, -⟩ | ⟨-, ht, -⟩ | ⟨status, fieldCount, off, ht, hoff, hr⟩
  · cases hhead
  · rw [ht] at hhead
    cases hhead
  rw [ht] at hhead
  obtain ⟨rfl, rfl, rfl⟩ : status = utf8 "SUCCESS" ∧ fieldCount = 1 ∧ payload.drop off = rest := by
    simpa using hhead
  have h7 : off + 7 ≤ payload.length := by
    have := length_of_takeField hfield
    rw [List.length_drop] at this
    omega
  obtain ⟨id, fieldType, len, hid, htype, hlen, ⟨-, hn⟩ | ⟨bytes, hl, -, hs, hf, -⟩⟩ :=
    field_at (ρ := Except RZError Codecs) h7
  · rw [hn] at hfield
    cases hfield
  rw [hf] at hfield
  obtain ⟨⟨rfl, rfl, rfl⟩, -⟩ : (id = 1 ∧ fieldType = 0x09 ∧ bytes = utf8 T) ∧ _ := by
    simpa using hfield
  have hT : fromUtf8 (utf8 T) = some T := fromUtf8_eq_some_iff.mpr rfl
  simp [hr, hid, htype, hlen, hs, hT, show ¬ off + 7 > payload.length by omega,
    show ¬ off + 7 + len.toNat > payload.length by omega, entriesOf]

/-! ## The features that a mask names -/

/-- The entries that a mask names: those at its bits, up to 24, but for the empty ones. -/
def namedFeatures (mask : UInt32) (entries : List String) : List String :=
  (maskedFeatures mask 0 (entries.take 24)).filter (· ≠ "")

/-- Both helpers report the given names for a mask. -/
def Reports (env : Env) (mask : UInt32) (names : List String) : Prop :=
  bitmaskToRateFeatureStrings env mask = .ok (.ok names) ∧
    ∀ json, writeRateFeaturesArray env json mask = json ++ (utf8 "\"rate_feature\":" ++
      (Json.arr (names.map fun s => .str (utf8 s))).render)

/-- After an empty entry among the first `n` there are only empty ones. -/
def Gapless (n : ℕ) (entries : List String) : Prop :=
  ∀ k < n, entries[k]? = some "" → ∀ s ∈ entries.drop k, s = ""

/-- What is reported is what the mask names of the features that were kept. -/
theorem reports_iff {env : Env} {features : List String} (h : env.rateFeatures = some features)
    (mask : UInt32) (names : List String) :
    Reports env mask names ↔ maskedFeatures mask 0 (features.take 24) = names := by
  rcases bitmaskToRateFeatureStrings_eq env mask with ⟨hn, -⟩ | ⟨features', hf, hb⟩
  · rw [h] at hn
    cases hn
  · obtain rfl := Option.some.inj (h.symm.trans hf)
    rw [Reports, hb]
    constructor
    · rintro ⟨hnames, -⟩
      exact Except.ok.inj (Except.ok.inj hnames)
    · rintro rfl
      refine ⟨rfl, fun json => ?_⟩
      rw [writeRateFeaturesArray_eq, h, Option.getD_some, map_featureItems]

theorem gapless_nil (n : ℕ) : Gapless n [] := by
  intro k _ hk
  cases hk

theorem gapless_zero (entries : List String) : Gapless 0 entries := fun k hk => absurd hk (by omega)

/-- After an empty entry everything is empty. -/
theorem gapless_cons_empty (n : ℕ) (entries : List String) :
    Gapless (n + 1) ("" :: entries) ↔ ∀ s ∈ entries, s = "" := by
  constructor
  · intro h s hs
    exact h 0 (by omega) rfl s (List.mem_cons_of_mem _ hs)
  · intro h k _ _ s hs
    rcases List.mem_cons.mp (List.mem_of_mem_drop hs) with rfl | hs
    · rfl
    · exact h s hs

/-- An entry that is not empty makes no gap. -/
theorem gapless_cons {a : String} (ha : a ≠ "") (n : ℕ) (entries : List String) :
    Gapless (n + 1) (a :: entries) ↔ Gapless n entries := by
  constructor
  · intro h k hk he
    exact h (k + 1) (by omega) he
  · intro h k hk he
    cases k with
    | zero => exact absurd (Option.some.inj he) ha
    | succ k => exact h k (by omega) he

theorem maskedFeatures_subset (mask : UInt32) (i : ℕ) (features : List String) :
    maskedFeatures mask i features ⊆ features := by
  induction features generalizing i with
  | nil => exact List.Subset.refl _
  | cons feature features ih =>
    rw [maskedFeatures]
    split_ifs
    · exact List.cons_subset_cons _ (ih (i + 1))
    · exact List.subset_cons_of_subset _ (ih (i + 1))

theorem filter_maskedFeatures_of_empty (mask : UInt32) (i : ℕ) {entries : List String}
    (h : ∀ s ∈ entries, s = "") : (maskedFeatures mask i entries).filter (· ≠ "") = [] := by
  refine List.filter_eq_nil_iff.mpr fun s hs => ?_
  simpa using h s (maskedFeatures_subset mask i entries hs)

/-- A mask of one bit names nothing after that bit. -/
theorem maskedFeatures_of_lt {i j : ℕ} (hi : i < 32) (hj : i < j) (features : List String) :
    maskedFeatures (UInt32.ofNat (2 ^ i)) j features = [] := by
  induction features generalizing j with
  | nil => rfl
  | cons feature features ih =>
    rw [maskedFeatures, toNat_two_pow hi, Nat.testBit_two_pow_of_ne (by omega), ih (by omega)]
    rfl

/-- **Features keep their positions** exactly if there are no gaps: from bit `i` on, the features
that are kept are named as the entries are, whatever the mask. -/
theorem maskedFeatures_filter_iff (entries : List String) (n i : ℕ) (h : i + n ≤ 32) :
    (∀ mask, maskedFeatures mask i ((entries.filter (· ≠ "")).take n) =
      (maskedFeatures mask i (entries.take n)).filter (· ≠ "")) ↔ Gapless n entries := by
  induction entries generalizing n i with
  | nil => exact iff_of_true (fun mask => by simp [maskedFeatures]) (gapless_nil n)
  | cons a entries ih =>
    cases n with
    | zero => exact iff_of_true (fun mask => by simp [maskedFeatures]) (gapless_zero _)
    | succ n =>
      by_cases ha : a = ""
      · subst ha
        rw [gapless_cons_empty]
        constructor
        · intro hmask s hs
          by_contra hne
          -- the next feature that is kept takes the bit of the empty entry
          have hkept : s ∈ entries.filter (· ≠ "") := List.mem_filter.mpr ⟨hs, by simpa using hne⟩
          obtain ⟨b, kept, hkept⟩ := List.exists_cons_of_ne_nil (List.ne_nil_of_mem hkept)
          have hbit : (UInt32.ofNat (2 ^ i)).toNat.testBit i = true := by
            rw [toNat_two_pow (by omega), Nat.testBit_two_pow_self]
          have hnames := hmask (UInt32.ofNat (2 ^ i))
          rw [List.filter_cons_of_neg (by simp), hkept, List.take_succ_cons, List.take_succ_cons,
            maskedFeatures, if_pos hbit, maskedFeatures, if_pos hbit,
            maskedFeatures_of_lt (by omega) (Nat.lt_succ_self i) (entries.take n)] at hnames
          cases hnames
        · intro hempty mask
          have hnone : entries.filter (· ≠ "") = [] :=
            List.filter_eq_nil_iff.mpr fun s hs => by simpa using hempty s hs
          rw [List.filter_cons_of_neg (by simp), hnone, filter_maskedFeatures_of_empty]
          · rfl
          · intro s hs
            rcases List.mem_cons.mp (List.mem_of_mem_take hs) with rfl | hs
            · rfl
            · exact hempty s hs
      · rw [gapless_cons ha, ← ih n (i + 1) (by omega)]
        refine forall_congr' fun mask => ?_
        have hkeep : (a :: entries).filter (· ≠ "") = a :: entries.filter (· ≠ "") := by simp [ha]
        rw [hkeep, List.take_succ_cons, List.take_succ_cons, maskedFeatures, maskedFeatures]
        by_cases hbit : mask.toNat.testBit i = true
        · rw [if_pos hbit, if_pos hbit, List.filter_cons_of_pos (by simpa using ha),
            List.cons_inj_right]
        · rw [if_neg hbit, if_neg hbit]

/-- **Rate features keep their server positions** exactly in a text without gaps among its first 24
entries: after the codecs are set, the helpers report for every mask the entries at its bits. -/
theorem reports_iff_gapless {env : Env} {payload rest rest' : Bytes} {T : String}
    (henv : env.rateFeatures = none) (hhead : takeHead payload = some (utf8 "SUCCESS", 1, rest))
    (hfield : takeField rest = some (⟨1, 0x09, utf8 T⟩, rest')) :
    ∃ codecs env', decodeGetCodecsResponse payload = .ok (.ok codecs) ∧
      env.setCodecs codecs = .ok env' ∧
      ((∀ mask, Reports env' mask (namedFeatures mask (entriesOf T))) ↔
        Gapless 24 (entriesOf T)) := by
  refine ⟨_, _, decodeGetCodecsResponse_eq hhead hfield, by rw [Env.setCodecs, henv], ?_⟩
  rw [← maskedFeatures_filter_iff (entriesOf T) 24 0 (by omega)]
  exact forall_congr' fun mask => reports_iff rfl mask _

/-- The reply to GETCODECS with the features of a text. -/
def codecsReply (T : String) : Bytes :=
  headBytes (utf8 "SUCCESS") 1 ++ (Field.mk 1 0x09 (utf8 T)).bytes

theorem takeHead_codecsReply (T : String) :
    takeHead (codecsReply T) = some (utf8 "SUCCESS", 1, (Field.mk 1 0x09 (utf8 T)).bytes) :=
  takeHead_headBytes (by decide) 1 _

/-- A text without gaps. -/
theorem reports_iff_gapless_two_features :
    ∃ codecs env',
      decodeGetCodecsResponse (codecsReply "breakfast, refundable") = .ok (.ok codecs) ∧
      Env.setCodecs { Env.documented [] with rateFeatures := none } codecs = .ok env' ∧
      ∀ mask, Reports env' mask (namedFeatures mask (entriesOf "breakfast, refundable")) := by
  have hfield : takeField (Field.mk 1 0x09 (utf8 "breakfast, refundable")).bytes =
      some (⟨1, 0x09, utf8 "breakfast, refundable"⟩, []) := by decide
  have henv : Env.rateFeatures { Env.documented [] with rateFeatures := none } = none := rfl
  obtain ⟨codecs, env', hdecode, hset, hiff⟩ :=
    reports_iff_gapless henv (takeHead_codecsReply _) hfield
  refine ⟨codecs, env', hdecode, hset, hiff.mpr ?_⟩
  have hentries : entriesOf "breakfast, refundable" = ["breakfast", "refundable"] := by decide
  rw [hentries, gapless_cons (by decide), gapless_cons (by decide)]
  exact gapless_nil 22

/-- **A gap** in the list of the server renames the feature after it. -/
theorem not_forall_reports :
    ¬ ∀ (env : Env) (payload rest rest' : Bytes) (T : String) (codecs : Codecs) (env' : Env),
      env.rateFeatures = none → takeHead payload = some (utf8 "SUCCESS", 1, rest) →
      takeField rest = some (⟨1, 0x09, utf8 T⟩, rest') →
      decodeGetCodecsResponse payload = .ok (.ok codecs) → env.setCodecs codecs = .ok env' →
      ∀ mask, Reports env' mask (namedFeatures mask (entriesOf T)) := by
  intro h
  have hfield : takeField (Field.mk 1 0x09 (utf8 "breakfast,,refundable")).bytes =
      some (⟨1, 0x09, utf8 "breakfast,,refundable"⟩, []) := by decide
  have hdecode := decodeGetCodecsResponse_eq (takeHead_codecsReply "breakfast,,refundable") hfield
  have hreports := h { Env.documented [] with rateFeatures := none } _ _ _ _ _ _ rfl
    (takeHead_codecsReply _) hfield hdecode rfl 2
  rw [reports_iff rfl] at hreports
  revert hreports
  decide

end RzProxy
