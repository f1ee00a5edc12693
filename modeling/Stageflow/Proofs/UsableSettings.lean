import Mathlib.Algebra.Order.Field.Rat
import Mathlib.Tactic.Positivity
import Mathlib.Tactic.SplitIfs
import Stageflow.Project.Folder
import Stageflow.Proofs.Results

/-!
# Settings that can be used

Whatever stands in the settings file of a project, what comes of it can be run with: budgets are
finite and positive, the time to wait for a lock is finite and not negative, and at least one step
of a cascade is allowed. Each value that can be used is taken over, whatever the others are, and the
default holds instead of any other value.

That is so as long as the numbers are such that floating point has. A time that is not a number, or
an infinite one, is taken over as it is, and an integer that is too large for floating point, or too
long to be read, ends the reading.

## Main statements

* `Binary64.ofInt?_pos` — a positive integer is rounded to a positive number.
* `settings_usable` — what comes of a settings file.
* `settings_unusable` — the numbers that floating point does not have.
-/

namespace Stageflow

open Project

/-! ## Integers in floating point -/

namespace Binary64

/-- What is at least one is not rounded to zero. -/
theorem nearestEven_pos {num den : Nat} (hden : 0 < den) (h : den ≤ num) :
    0 < nearestEven num den := by
  have hquotient : 0 < num / den := Nat.div_pos h hden
  unfold nearestEven
  dsimp only
  split_ifs <;> omega

/-- The last place of an integer is not beyond the integer. -/
theorem pow_placeExponent_le {n : Nat} (pos : 0 < n) : 2 ^ (placeExponent n 1).toNat ≤ n := by
  have hexponent : (placeExponent n 1).toNat ≤ n.log2 := by
    have hone : Nat.log2 1 = 0 := by decide
    unfold placeExponent leastExponent
    rw [hone]
    dsimp only
    split_ifs <;> omega
  calc 2 ^ (placeExponent n 1).toNat ≤ 2 ^ n.log2 := Nat.pow_le_pow_right (by decide) hexponent
    _ ≤ n := Nat.log2_self_le pos.ne'

theorem magnitude_nonneg (m : Nat) (e : Int) : 0 ≤ magnitude m e :=
  div_nonneg (Nat.cast_nonneg _) (Nat.cast_nonneg _)

theorem magnitude_pos {m : Nat} (pos : 0 < m) (e : Int) : 0 < magnitude m e :=
  div_pos (Nat.cast_pos.2 (Nat.mul_pos pos (Nat.pow_pos (by decide))))
    (Nat.cast_pos.2 (Nat.pow_pos (by decide)))

/-- A finite number that is made of a sign and a significand keeps the sign, and is not zero if the
significand is not. -/
theorem pack_eq_finite {negative s : Bool} {significand m : Nat} {exponent e : Int}
    (h : pack negative significand exponent = .finite s m e) :
    s = negative ∧ (0 < significand → 0 < m) := by
  unfold pack at h
  dsimp only at h
  split_ifs at h <;> cases h
  · exact ⟨rfl, fun _ => Nat.pow_pos (by decide)⟩
  · exact ⟨rfl, id⟩

/-- A positive integer is rounded to a positive number. -/
theorem ofInt?_pos {n : Int} {x : Binary64} (pos : 0 < n) (h : ofInt? n = some x) :
    ∃ r, x.toRat? = some r ∧ 0 < r := by
  obtain ⟨k, rfl⟩ := Int.eq_ofNat_of_zero_le pos.le
  have hk : 0 < k := Int.natCast_pos.1 pos
  unfold ofInt? at h
  split at h
  next s m e hround =>
    cases h
    have hnot : ¬ ((k : Int) < 0) := Int.not_lt.2 pos.le
    simp only [ofRatio, hnot, hk.ne', decide_false, Int.natAbs_natCast, Nat.one_ne_zero,
      if_false] at hround
    obtain ⟨rfl, hpos⟩ := pack_eq_finite hround
    refine ⟨_, rfl, magnitude_pos (hpos (nearestEven_pos ?_ ?_)) e⟩
    · exact Nat.mul_pos Nat.one_pos (Nat.pow_pos (by decide))
    · calc 1 * Nat.pow 2 (placeExponent k 1).toNat
        _ = 2 ^ (placeExponent k 1).toNat := Nat.one_mul _
        _ ≤ k := pow_placeExponent_le hk
        _ ≤ k * Nat.pow 2 (-placeExponent k 1).toNat :=
          Nat.le_mul_of_pos_right k (Nat.pow_pos (by decide))
  next => cases h

/-- An integer that is not negative is rounded to no negative number. -/
theorem ofInt?_nonneg {n : Int} {x : Binary64} (nonneg : 0 ≤ n) (h : ofInt? n = some x) :
    ∃ r, x.toRat? = some r ∧ 0 ≤ r := by
  obtain rfl | pos := nonneg.eq_or_lt
  · obtain rfl : zero false = x := Option.some.inj ((by decide : ofInt? 0 = _).symm.trans h)
    exact ⟨_, rfl, magnitude_nonneg 0 leastExponent⟩
  · obtain ⟨r, hr, hpos⟩ := ofInt?_pos pos h
    exact ⟨r, hr, hpos.le⟩

theorem place?_of_toRat? {x : Binary64} {r : Rat} (h : x.toRat? = some r) :
    x.place? = some (.at r) := by
  cases x <;> cases h
  rfl

end Binary64

/-! ## What is taken over -/

namespace Settings

/-- The settings that hold without a file. -/
def standard : Settings := {}

/-- What is chosen for a key: the value that is given, if it is a valid one, else the default. -/
def Chosen {α : Type} (valid : Json → α → Prop) (standard : α) (given : Option Json)
    (chosen : α) : Prop :=
  (∃ v, given = some v ∧ valid v chosen) ∨
    (∀ v, given = some v → ∀ a, ¬ valid v a) ∧ chosen = standard

/-- Whether a value is a number of seconds in a range: a finite number, or an integer that is
rounded to one. -/
def IsSeconds (range : Rat → Prop) (v : Json) (x : Binary64) : Prop :=
  (∃ n : Int, v = .int n ∧ range n ∧ Binary64.ofInt? n = some x) ∨
    ∃ r, v = .real x ∧ x.toRat? = some r ∧ range r

/-- What is chosen for a time, where neither the undefined number nor infinity is given: a finite
number in the range. -/
def ChosenSeconds (range : Rat → Prop) (standard : Binary64) (given : Option Json)
    (x : Binary64) : Prop :=
  given ≠ some (.real .nan) → given ≠ some (.real (.infinite false)) →
    (∃ r, x.toRat? = some r ∧ range r) ∧ Chosen (IsSeconds range) standard given x

/-- Whether settings are those of the fields of a file: each of them is chosen by the value under
its own key. -/
structure Follow (fields : Fields) (s : Settings) : Prop where
  subscriberTimeout : ChosenSeconds (0 < ·) standard.subscriberTimeout
    (fields.get? "subscriber_timeout") s.subscriberTimeout
  actionTimeout : ChosenSeconds (0 < ·) standard.actionTimeout
    (fields.get? "action_timeout") s.actionTimeout
  tickInterval : ChosenSeconds (0 < ·) standard.tickInterval
    (fields.get? "tick_interval") s.tickInterval
  lockWait : ChosenSeconds (0 ≤ ·) standard.lockWait (fields.get? "lock_wait") s.lockWait
  maxCascadeDepth : 1 ≤ s.maxCascadeDepth ∧
    Chosen (fun v n => v = .int n ∧ 1 ≤ n) standard.maxCascadeDepth
      (fields.get? "max_cascade_depth") s.maxCascadeDepth
  enabledTemplates : Chosen (fun v texts => v = Json.strings texts) standard.enabledTemplates
    (fields.get? "enabled_templates") s.enabledTemplates

/-- The keys of the times. -/
def timeKeys : List String := ["subscriber_timeout", "action_timeout", "tick_interval", "lock_wait"]

section Times

variable {test : Extended → Bool} {range : Rat → Prop} {problem : Json → Problem} {raw : Fields}
  {key : String} {standard : Binary64}

/-- A test of places that asks for a range of finite numbers on the side of infinity. -/
structure Bounds (test : Extended → Bool) (range : Rat → Prop) : Prop where
  at_iff : ∀ r, test (.at r) ↔ range r
  below : test .below = false
  rounded : ∀ {n : Int} {x : Binary64}, range n → Binary64.ofInt? n = some x →
    ∃ r, x.toRat? = some r ∧ range r

theorem IsSeconds.usable (bounds : Bounds test range) {v : Json} {x : Binary64}
    (h : IsSeconds range v x) : ∃ r, x.toRat? = some r ∧ range r := by
  obtain ⟨n, -, hn, hround⟩ | ⟨r, -, hr, hrange⟩ := h
  · exact bounds.rounded hn hround
  · exact ⟨r, hr, hrange⟩

/-- A number of seconds that is read is one in the range, unless floating point has no place for
it. -/
theorem isSeconds_of_seconds? (bounds : Bounds test range) {v : Json} {x : Binary64}
    (h : seconds? test v = .ok (some x)) (hnan : v ≠ .real .nan)
    (hinfinite : v ≠ .real (.infinite false)) : IsSeconds range v x := by
  unfold seconds? at h
  split at h
  next n =>
    split at h
    next hn =>
      split at h <;> cases h
      next hround => exact .inl ⟨n, rfl, (bounds.at_iff n).1 hn, hround⟩
    next => cases h
  next y =>
    cases y with
    | finite negative m e =>
      obtain ⟨r, hr⟩ : ∃ r, (Binary64.finite negative m e).toRat? = some r := ⟨_, rfl⟩
      rw [Binary64.place?_of_toRat? hr] at h
      have hrange : test (.at r) := by
        by_contra hnot
        simp [hnot] at h
      obtain rfl : Binary64.finite negative m e = x := by simpa [hrange] using h
      exact .inr ⟨r, rfl, hr, (bounds.at_iff r).1 hrange⟩
    | infinite negative =>
      cases negative with
      | false => exact absurd rfl hinfinite
      | true => simp [Binary64.place?, bounds.below] at h
    | nan => exact absurd rfl hnan
  next => cases h

/-- What is passed over is no number of seconds in the range. -/
theorem not_isSeconds_of_seconds? (bounds : Bounds test range) {v : Json}
    (h : seconds? test v = .ok none) (x : Binary64) : ¬ IsSeconds range v x := by
  rintro (⟨n, rfl, hn, hround⟩ | ⟨r, rfl, hr, hrange⟩)
  · simp [seconds?, (bounds.at_iff n).2 hn, hround] at h
  · simp [seconds?, Binary64.place?_of_toRat? hr, (bounds.at_iff r).2 hrange] at h

theorem seconds?_eq_error (bounds : Bounds test range) {v : Json} {e : Unreadable}
    (h : seconds? test v = .error e) :
    ∃ n : Int, v = .int n ∧ range n ∧ Binary64.ofInt? n = none := by
  unfold seconds? at h
  split at h
  next n =>
    split at h
    next hn =>
      split at h <;> cases h
      next hround => exact ⟨n, rfl, (bounds.at_iff n).1 hn, hround⟩
    next => cases h
  next => cases h
  next => cases h

/-- What comes of a time is chosen by what stands under its key. -/
theorem readSeconds_chosen (bounds : Bounds test range)
    (usable : ∃ r, standard.toRat? = some r ∧ range r)
    (fits : ∀ n : Int, raw.get? key = some (.int n) → range n → (Binary64.ofInt? n).isSome) :
    ∃ x, (readSeconds test problem raw key standard).value = .ok x ∧
      ChosenSeconds range standard (raw.get? key) x := by
  unfold readSeconds
  cases hgiven : raw.get? key with
  | none => exact ⟨standard, rfl, fun _ _ => ⟨usable, .inr ⟨by simp, rfl⟩⟩⟩
  | some v =>
    dsimp only
    cases hseconds : seconds? test v with
    | error e =>
      obtain ⟨n, rfl, hn, hround⟩ := seconds?_eq_error bounds hseconds
      simpa [hround] using fits n hgiven hn
    | ok found =>
      cases found with
      | none =>
        have hnot := not_isSeconds_of_seconds? bounds hseconds
        refine ⟨standard, rfl, fun _ _ => ⟨usable, .inr ⟨?_, rfl⟩⟩⟩
        rintro _ ⟨⟩
        exact hnot
      | some x =>
        refine ⟨x, rfl, fun hnan hinfinite => ?_⟩
        have hv := isSeconds_of_seconds? bounds hseconds (fun h => hnan (congrArg some h))
          fun h => hinfinite (congrArg some h)
        exact ⟨hv.usable bounds, .inl ⟨v, rfl, hv⟩⟩

end Times

theorem bounds_budget : Bounds (fun p => !p.le (.at 0)) (0 < ·) where
  at_iff r := by simp [Extended.le]
  below := rfl
  rounded hn h := Binary64.ofInt?_pos (Int.cast_pos.1 hn) h

theorem bounds_wait : Bounds (fun p => !p.lt (.at 0)) (0 ≤ ·) where
  at_iff r := by simp [Extended.lt, Extended.le]
  below := rfl
  rounded hn h := Binary64.ofInt?_nonneg (Int.cast_nonneg_iff.1 hn) h

section Fits

variable {raw : Fields} {key : String} (standard : Binary64)
  (fits : ∀ n : Int, raw.get? key = some (.int n) → 0 ≤ n → (Binary64.ofInt? n).isSome)
include fits

theorem readBudget_chosen (usable : ∃ r, standard.toRat? = some r ∧ 0 < r) :
    ∃ x, (readBudget raw key standard).value = .ok x ∧
      ChosenSeconds (0 < ·) standard (raw.get? key) x :=
  readSeconds_chosen bounds_budget usable fun n hn hpos => fits n hn (Int.cast_pos.1 hpos).le

theorem readWait_chosen (usable : ∃ r, standard.toRat? = some r ∧ 0 ≤ r) :
    ∃ x, (readWait raw key standard).value = .ok x ∧
      ChosenSeconds (0 ≤ ·) standard (raw.get? key) x :=
  readSeconds_chosen bounds_wait usable fun n hn hnonneg =>
    fits n hn (Int.cast_nonneg_iff.1 hnonneg)

end Fits

/-! ## The other settings -/

section Others

variable (raw : Fields) (key : String)

theorem readDepth_chosen (standard : Int) (usable : 1 ≤ standard) :
    ∃ n, (readDepth raw key standard).value = .ok n ∧ 1 ≤ n ∧
      Chosen (fun v n => v = .int n ∧ 1 ≤ n) standard (raw.get? key) n := by
  unfold readDepth
  split
  next hgiven => exact ⟨standard, rfl, usable, .inr ⟨by simp [hgiven], rfl⟩⟩
  next n hgiven =>
    split
    next hless =>
      refine ⟨standard, rfl, usable, .inr ⟨?_, rfl⟩⟩
      rintro v hv _ ⟨rfl, hle⟩
      obtain rfl := Json.int.inj (Option.some.inj (hgiven.symm.trans hv))
      omega
    next hle => exact ⟨n, rfl, by omega, .inl ⟨_, hgiven, rfl, by omega⟩⟩
  next w hnot hgiven =>
    refine ⟨standard, rfl, usable, .inr ⟨?_, rfl⟩⟩
    rintro v hv n ⟨rfl, -⟩
    exact hnot n (Option.some.inj (hgiven.symm.trans hv))

theorem mapM_text?_eq_some {xs : List Json} {texts : List String} :
    xs.mapM Json.text? = some texts ↔ xs = texts.map .str := by
  have hsingle : ∀ x text, Json.text? x = some text ↔ x = .str text := by
    intro x text
    cases x <;> simp [Json.text?]
  induction xs generalizing texts with
  | nil => cases texts <;> simp
  | cons x xs ih => cases texts <;> simp [Option.bind_eq_some_iff, hsingle, ih]

theorem readTexts_chosen (standard : List String) :
    ∃ texts, (readTexts raw key standard).value = .ok texts ∧
      Chosen (fun v texts => v = Json.strings texts) standard (raw.get? key) texts := by
  unfold readTexts
  split
  next hgiven => exact ⟨standard, rfl, .inr ⟨by simp [hgiven], rfl⟩⟩
  next xs hgiven =>
    split
    next texts htexts =>
      exact ⟨texts, rfl, .inl ⟨_, hgiven, congrArg Json.arr (mapM_text?_eq_some.1 htexts)⟩⟩
    next hnone =>
      refine ⟨standard, rfl, .inr ⟨?_, rfl⟩⟩
      rintro v hv texts rfl
      have hxs := Json.arr.inj (Option.some.inj (hgiven.symm.trans hv))
      simp [mapM_text?_eq_some.2 hxs] at hnone
  next w hnot hgiven =>
    refine ⟨standard, rfl, .inr ⟨?_, rfl⟩⟩
    rintro v hv texts rfl
    exact hnot _ (Option.some.inj (hgiven.symm.trans hv))

end Others

/-- A reading goes on with the value that was read. -/
theorem Reading.value_bind {α β : Type} {first : Reading α} {a : α} (h : first.value = .ok a)
    (next : α → Reading β) : (first >>= next).value = (next a).value := by
  change (first.andThen next).value = _
  unfold Reading.andThen
  rw [h]

/-- The fields of a file come to settings that follow them, if floating point has room for the
times that are integers. -/
theorem ofFields_follow {fields : Fields}
    (fits : ∀ key ∈ timeKeys, ∀ n : Int, fields.get? key = some (.int n) → 0 ≤ n →
      (Binary64.ofInt? n).isSome) :
    ∃ s, (ofFields fields).value = .ok s ∧ s.Follow fields := by
  obtain ⟨hsubscriber, haction, htick, hlock, -⟩ := by
    simpa only [timeKeys, List.forall_mem_cons] using fits
  obtain ⟨subscriberTimeout, hsubscriber, subscriber⟩ :=
    readBudget_chosen standard.subscriberTimeout hsubscriber
      (Binary64.ofInt?_pos (n := 5) (by decide) (by decide))
  obtain ⟨actionTimeout, haction, action⟩ := readBudget_chosen standard.actionTimeout haction
    (Binary64.ofInt?_pos (n := 10) (by decide) (by decide))
  obtain ⟨tickInterval, htick, tick⟩ := readBudget_chosen standard.tickInterval htick
    (Binary64.ofInt?_pos (n := 30) (by decide) (by decide))
  obtain ⟨lockWait, hlock, lock⟩ := readWait_chosen standard.lockWait hlock
    (Binary64.ofInt?_nonneg (n := 0) (by decide) (by decide))
  obtain ⟨maxCascadeDepth, hdepth, depth⟩ :=
    readDepth_chosen fields "max_cascade_depth" standard.maxCascadeDepth (by decide)
  obtain ⟨enabledTemplates, htemplates, templates⟩ :=
    readTexts_chosen fields "enabled_templates" standard.enabledTemplates
  refine ⟨⟨subscriberTimeout, actionTimeout, tickInterval, lockWait, maxCascadeDepth,
    enabledTemplates⟩, ?_, subscriber, action, tick, lock, depth, templates⟩
  calc (ofFields fields).value
    _ = _ := Reading.value_bind hsubscriber _
    _ = _ := Reading.value_bind haction _
    _ = _ := Reading.value_bind htick _
    _ = _ := Reading.value_bind hlock _
    _ = _ := Reading.value_bind hdepth _
    _ = _ := Reading.value_bind htemplates _
    _ = _ := rfl

end Settings

/-- The fields of a settings file: none, if no object can be read from it. -/
def settingsFields (text : String) : Fields :=
  ((Json.read text).toOption.bind Json.fields?).getD []

/-- A settings file that can be read comes to settings that can be run with, and each of them is
chosen by what stands under its own key, if floating point has room for the times that are
integers. Values may be nested to any depth: the stack of the program that reads them is not part of
this. -/
theorem settings_usable {tree : Tree} {project : Path} {text : String}
    (file : tree.get? (project ++ [settingsName]) = some (.file text))
    (short : ∀ digits, Json.read text ≠ .error (.tooLong digits))
    (fits : ∀ key ∈ Settings.timeKeys, ∀ n : Int, (settingsFields text).get? key = some (.int n) →
      0 ≤ n → (Binary64.ofInt? n).isSome) :
    ∃ s, (settings tree project).2 = .ok s ∧ s.Follow (settingsFields text) := by
  obtain ⟨s, hs, hfollow⟩ := Settings.ofFields_follow fits
  refine ⟨s, ?_, hfollow⟩
  have hnone : settingsFields text = [] → s = {} := fun h =>
    (Except.ok.inj (h ▸ hs : (Settings.ofFields []).value = .ok s)).symm
  unfold settings
  dsimp only
  rw [file]
  dsimp only
  unfold settingsFields at hs hnone
  cases hread : Json.read text with
  | error unread =>
    rw [hread] at hnone
    cases unread with
    | malformed => rw [hnone rfl]
    | tooLong digits => exact absurd hread (short digits)
  | ok v =>
    rw [hread] at hs hnone
    cases v with
    | obj fields => exact mapError_eq_ok.2 hs
    | _ => rw [hnone rfl]

/-- A tree with a settings file. -/
def withSettings (text : String) : Tree := ({} : Tree).put [settingsName] (.file text)

/-- A settings file with a time that can be used, and one that cannot. -/
def mixedText : String := "\x7b\"action_timeout\": 2, \"lock_wait\": -1\x7d"

/-- The time that can be used is taken over, and the default holds instead of the other. -/
theorem settings_usable_mixed :
    ∃ s, (settings (withSettings mixedText) []).2 = .ok s ∧
      s.Follow (settingsFields mixedText) ∧
      s.actionTimeout = .ofQuotient 2 1 ∧ s.lockWait = Settings.standard.lockWait := by
  have hread : (Json.read mixedText).toOption.isSome := by decide +kernel
  have hfits : Settings.timeKeys.all fun key =>
      ((settingsFields mixedText).get? key).all fun v => v.number.toOption.isSome := by
    decide +kernel
  have htimes : (settings (withSettings mixedText) []).2.toOption.map
      (fun s => (s.actionTimeout, s.lockWait)) =
        some (.ofQuotient 2 1, Settings.standard.lockWait) := by
    decide +kernel
  have short : ∀ digits, Json.read mixedText ≠ .error (.tooLong digits) := by
    intro digits h
    rw [h] at hread
    cases hread
  have fits : ∀ key ∈ Settings.timeKeys, ∀ n : Int,
      (settingsFields mixedText).get? key = some (.int n) → 0 ≤ n → (Binary64.ofInt? n).isSome := by
    intro key hkey n hn _
    have hnumber := List.all_eq_true.1 hfits key hkey
    rw [hn] at hnumber
    cases hsome : Binary64.ofInt? n with
    | some x => rfl
    | none => simp [Json.number, hsome, Except.toOption] at hnumber
  have file : (withSettings mixedText).get? ([] ++ [settingsName]) = some (.file mixedText) := rfl
  obtain ⟨s, hs, hfollow⟩ := settings_usable file short fits
  rw [hs] at htimes
  exact ⟨s, hs, hfollow, Prod.mk.inj (Option.some.inj htimes)⟩

/-- Infinity and what is no number at all are taken over as times, and an integer may be too large
for one. -/
theorem settings_unusable :
    (settings (withSettings "\x7b\"action_timeout\": Infinity\x7d") []).2.toOption.map
        (·.actionTimeout) = some (.infinite false) ∧
      (settings (withSettings "\x7b\"action_timeout\": NaN\x7d") []).2.toOption.map
        (·.actionTimeout) = some .nan ∧
      (Settings.ofFields [("action_timeout", .int (10 ^ 400))]).value = .error .tooLarge := by
  decide +kernel

end Stageflow
