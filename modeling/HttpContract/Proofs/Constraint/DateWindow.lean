import HttpContract.Constraint.Date
import HttpContract.Proofs.Calendar.Fields
import HttpContract.Proofs.Random

/-!
# Constraint.Date — windows that nothing can be drawn from

A window around the present stays in the calendar. One that a single limit opens is a year long,
and one that ends in a leap second goes on for as long as that: these may leave the calendar. In one
that starts in a leap second, counting may go backwards. Drawing a date is broken off exactly in
these windows (`DateRule.Overruns`, `DateRule.draw_brokenOff_iff`).
-/

namespace HttpContract.Constraint

open Calendar (Day Instant)

namespace DateRule

/-! ## Limits -/

theorem readBound_proper {format : Option DateFormat} {option text : String} {bound : DateBound}
    (h : readBound format option text = .ok bound) : bound.instant.Proper := by
  unfold readBound at h
  simp only [Option.orElse_eq_orElse, Option.orElse_eq_or] at h
  split at h
  · next t ht =>
    cases h
    rw [Option.or_eq_some_iff] at ht
    obtain ht | ⟨-, ht⟩ := ht
    · exact Calendar.Read.iso?_proper ht
    · obtain ⟨f, -, ht⟩ := Option.bind_eq_some_iff.mp ht
      exact Calendar.Read.formatted?_proper ht
  · cases h

theorem readOptional_proper {format : Option DateFormat} {option : String} {text : Option String}
    {bound : Option DateBound} (h : readOptional (readBound format option) text = .ok bound) :
    ∀ b ∈ bound, b.instant.Proper := by
  cases text with
  | none =>
    cases h
    exact nofun
  | some text =>
    obtain ⟨b, hb, rfl⟩ := map_ok.mp h
    rintro _ ⟨⟩
    exact readBound_proper hb

/-- What the construction of a condition ensures of its limits. -/
structure Sound (r : DateRule) : Prop where
  earliest : ∀ lo ∈ r.earliest, lo.instant.Proper
  latest : ∀ hi ∈ r.latest, hi.instant.Proper
  ordered : ∀ lo ∈ r.earliest, ∀ hi ∈ r.latest, lo.instant.atMost hi.instant = true
  between : r.period = some .between → r.earliest.isSome = true ∧ r.latest.isSome = true

theorem ofOptions_sound {format : Option String} {period : Option Period}
    {earliest latest : Option String} {r : DateRule}
    (h : ofOptions format period earliest latest = .ok r) : r.Sound := by
  unfold ofOptions at h
  obtain ⟨f, -, h⟩ := bind_ok.mp h
  obtain ⟨lo, hlo, h⟩ := bind_ok.mp h
  obtain ⟨hi, hhi, h⟩ := bind_ok.mp h
  have plo := readOptional_proper hlo
  have phi := readOptional_proper hhi
  by_cases hopen : period = some .between ∧ (lo.isNone = true ∨ hi.isNone = true)
  · simp only [if_pos hopen] at h
    cases h
  · simp only [if_neg hopen] at h
    have hbetween : period = some .between → lo.isSome = true ∧ hi.isSome = true := by
      intro hperiod
      have hsome := mt (And.intro hperiod) hopen
      simpa only [not_or, Option.isNone_iff_eq_none, ← Option.isSome_iff_ne_none] using hsome
    cases lo with
    | none =>
      cases h
      exact ⟨plo, phi, nofun, hbetween⟩
    | some lo =>
      cases hi with
      | none =>
        cases h
        exact ⟨plo, phi, fun _ _ => nofun, hbetween⟩
      | some hi =>
        simp only at h
        split at h
        · cases h
        · next horder =>
          cases h
          refine ⟨plo, phi, ?_, hbetween⟩
          rintro _ ⟨⟩ _ ⟨⟩
          refine Decidable.byContradiction fun hnot => horder ?_
          have hback := Instant.atMost_of_not hnot
          have hne : hi.instant ≠ lo.instant := fun heq => hnot (heq ▸ Instant.atMost_refl _)
          simp [hback, hne]

/-! ## Windows -/

/-- The windows that nothing can be drawn from. The year behind or before a single limit leaves the
calendar, or the time up to a limit in a leap second at its end does, or counting goes backwards
from a limit in a leap second to the other limit or to the end of a window around the present. -/
def Overruns (r : DateRule) (now : Instant) : Prop :=
  if r.effectivePeriod = .between then
    match r.earliest, r.latest with
    | some lo, some hi =>
      lo.instant.ReachesEnd hi.instant ∨ lo.instant.CountsBack hi.instant
    | some lo, none => lo.instant.day.year = Day.lastYear
    | none, some hi =>
      hi.instant.carried.day.year = Day.firstYear ∨ hi.instant.carried.day.isSupported = false
    | none, none => False
  else ∃ lo hi, r.window? now = some (lo, hi) ∧ lo.CountsBack hi

/-- The year behind a limit lies in the calendar, unless the limit is in its last year. -/
theorem addDays?_longWindow_eq_none_iff {t : Instant} (h : t.Proper) :
    t.addDays? longWindow = none ↔ t.day.year = Day.lastYear := by
  have hhigh := (Day.supportsYear_iff.mp (Day.isSupported_iff.mp h.day)).2
  have hrange := Instant.isSupported_iff_seconds.mp h.day
  have hyear := Instant.le_year_iff (y := Day.lastYear) (t := t)
  have hstart : (Day.daysBefore Day.lastYear - Day.epoch) * Instant.perDay = 8210235340800 := rfl
  have hlong : longWindow * Instant.perDay = 31536000 := rfl
  rw [hstart] at hyear
  rw [Instant.addDays?, Instant.addSeconds?, Instant.move_of_pos h.nanoseconds (by decide),
    Instant.supported?_eq_none_iff, hlong]
  rw [Instant.firstSecond_eq, Instant.endSecond_eq] at *
  simp only
  omega

/-- The year before a limit lies in the calendar, unless the limit is in its first year. -/
theorem addDays?_neg_longWindow_eq_none_iff {t : Instant} (h : t.Proper) :
    t.addDays? (-longWindow) = none ↔ t.carried.day.year = Day.firstYear := by
  have hrange := Instant.isSupported_iff_seconds.mp h.day
  have hfirst := Instant.le_year_iff (y := Day.firstYear) (t := t.carried)
  have hsecond := Instant.le_year_iff (y := Day.firstYear + 1) (t := t.carried)
  have hstart : (Day.daysBefore Day.firstYear - Day.epoch) * Instant.perDay = -8334601228800 := rfl
  have hnext : (Day.daysBefore (Day.firstYear + 1) - Day.epoch) * Instant.perDay
    = -8334569692800 := rfl
  have hlong : -longWindow * Instant.perDay = -31536000 := rfl
  have hstep : t.seconds ≤ t.carried.seconds ∧ t.carried.seconds ≤ t.seconds + 1 := by
    rw [(Instant.carried_eq h.nanoseconds).1]
    split <;> omega
  rw [Instant.addDays?, Instant.addSeconds?, Instant.move_of_neg h.nanoseconds (by decide),
    Instant.supported?_eq_none_iff, hlong]
  rw [hstart] at hfirst
  rw [hnext] at hsecond
  rw [Instant.firstSecond_eq, Instant.endSecond_eq] at *
  simp only
  omega

/-- A move that keeps away from the ends of the calendar. -/
theorem exists_addSeconds? {t : Instant} (h : t.nanoseconds < 2 * Instant.perSecond) {seconds : Int}
    (hne : seconds ≠ 0) (hlow : Instant.firstSecond ≤ t.seconds + seconds)
    (hhigh : t.seconds + seconds + 1 < Instant.endSecond) :
    ∃ u, t.addSeconds? seconds = some u ∧ u.Proper ∧ u.seconds ≤ t.seconds + seconds + 1 := by
  cases hu : t.addSeconds? seconds with
  | some u =>
    obtain ⟨hproper, -, -, hle⟩ := Instant.addSeconds?_some h hne hu
    exact ⟨u, rfl, hproper, hle⟩
  | none =>
    rw [Instant.addSeconds?, Instant.supported?_eq_none_iff] at hu
    have hcarried := (Instant.carried_eq h).1
    rcases Int.lt_or_gt_of_ne hne with hneg | hpos
    · rw [Instant.move_of_neg h hneg, hcarried] at hu
      split at hu <;> simp only at hu <;> omega
    · rw [Instant.move_of_pos h hpos] at hu
      simp only at hu
      omega

/-- An instant of the years from 1970 to 9999. -/
structure Present (now : Instant) : Prop where
  first : 1970 ≤ now.day.year
  last : now.day.year ≤ 9999
  nanoseconds : now.nanoseconds < 2 * Instant.perSecond

theorem Present.seconds {now : Instant} (h : Present now) :
    0 ≤ now.seconds ∧ now.seconds < 253402300800 := by
  have hfirst := Instant.le_year_iff.mp h.first
  have hlast := mt Instant.le_year_iff.mpr (show ¬ 10000 ≤ now.day.year by have := h.last; omega)
  have hstart : (Day.daysBefore 1970 - Day.epoch) * Instant.perDay = 0 := rfl
  have hend : (Day.daysBefore 10000 - Day.epoch) * Instant.perDay = 253402300800 := rfl
  omega

/-- A window around an instant more than a year from the ends of the calendar keeps away from them,
too, and its ends are in order. -/
theorem exists_openWindow? {r : DateRule} {now : Instant}
    (hnano : now.nanoseconds < 2 * Instant.perSecond)
    (hfirst : Instant.firstSecond + 31536000 ≤ now.seconds)
    (hlast : now.seconds + 31536001 < Instant.endSecond) (h : r.effectivePeriod ≠ .between) :
    ∃ lo hi, r.openWindow? now = some (lo, hi) ∧ lo.Proper ∧ hi.Proper
      ∧ lo.seconds < hi.seconds ∧ hi.seconds ≤ now.seconds + 31536001 := by
  have hmove : ∀ seconds : Int, seconds ≠ 0 → -31536000 ≤ seconds → seconds ≤ 31536000 →
      ∃ u, now.addSeconds? seconds = some u ∧ u.Proper ∧ now.seconds + seconds ≤ u.seconds
        ∧ u.seconds ≤ now.seconds + seconds + 1 := by
    intro seconds hne hlow hhigh
    obtain ⟨u, hu, -, -⟩ := exists_addSeconds? hnano hne (by omega) (by omega)
    obtain ⟨hproper, -, hge, hle⟩ := Instant.addSeconds?_some hnano hne hu
    exact ⟨u, hu, hproper, hge, hle⟩
  have hday : Instant.perDay = 86400 := rfl
  have honward : longWindow * Instant.perDay = 31536000 := rfl
  have hback : -longWindow * Instant.perDay = -31536000 := rfl
  rw [openWindow?]
  cases hperiod : r.effectivePeriod with
  | recent =>
    obtain ⟨lo, hlo, plo, -, hle⟩ :=
      hmove (-1 * Instant.perDay) (by decide) (by decide) (by decide)
    have hnow : now.Proper := by
      refine ⟨?_, hnano⟩
      rw [Instant.isSupported_iff_seconds]
      omega
    refine ⟨lo, now, ?_, plo, hnow, by omega, by omega⟩
    simp only [Instant.addDays?, hlo]
    rfl
  | past =>
    obtain ⟨lo, hlo, plo, -, hle⟩ :=
      hmove (-longWindow * Instant.perDay) (by decide) (by decide) (by decide)
    obtain ⟨hi, hhi, phi, hge, hle'⟩ := hmove (-1) (by decide) (by decide) (by decide)
    refine ⟨lo, hi, ?_, plo, phi, by omega, by omega⟩
    simp only [Instant.addDays?, hlo, hhi]
    rfl
  | future =>
    obtain ⟨lo, hlo, plo, -, hle⟩ := hmove 1 (by decide) (by decide) (by decide)
    obtain ⟨hi, hhi, phi, hge, hle'⟩ :=
      hmove (longWindow * Instant.perDay) (by decide) (by decide) (by decide)
    refine ⟨lo, hi, ?_, plo, phi, by omega, by omega⟩
    simp only [Instant.addDays?, hlo, hhi]
    rfl
  | between => exact absurd hperiod h

/-- A window around the present keeps away from the end of the calendar. -/
theorem openWindow?_present {r : DateRule} {now : Instant} (hnow : Present now)
    (h : r.effectivePeriod ≠ .between) : ∃ lo hi, r.openWindow? now = some (lo, hi)
      ∧ lo.Proper ∧ hi.Proper ∧ hi.seconds + 1 < Instant.endSecond := by
  have hseconds := hnow.seconds
  have hstart := Instant.firstSecond_eq
  have hend := Instant.endSecond_eq
  obtain ⟨lo, hi, hopen, plo, phi, -, hle⟩ :=
    exists_openWindow? hnow.nanoseconds (by omega) (by omega) h
  exact ⟨lo, hi, hopen, plo, phi, by omega⟩

/-- The limits cut a window at both ends. -/
theorem window?_of_open {r : DateRule} (hr : r.Sound) {now lo hi : Instant}
    (h : r.openWindow? now = some (lo, hi)) (hlo : lo.Proper) (hhi : hi.Proper) :
    ∃ first last, r.window? now = some (first, last) ∧ first.Proper ∧ last.Proper
      ∧ last.seconds ≤ hi.seconds := by
  refine ⟨_, _, by rw [window?, h]; rfl, ?_, ?_⟩
  · cases hearliest : r.earliest with
    | none => exact hlo
    | some bound =>
      rcases (Instant.latest_spec lo bound.instant).1 with heq | heq <;> simp only [heq]
      · exact hlo
      · exact hr.earliest bound hearliest
  · cases hlatest : r.latest with
    | none => exact ⟨hhi, Int.le_refl _⟩
    | some bound =>
      obtain ⟨hone, hle, -⟩ := Instant.earliest_spec hi bound.instant
      refine ⟨?_, hle⟩
      rcases hone with heq | heq <;> simp only [heq]
      · exact hhi
      · exact hr.latest bound hlatest

/-! ## Drawing -/

/-- What an attempt does with the instant that it samples. -/
theorem run_drawWithin (r : DateRule) {lo hi : Instant} (h : 0 ≤ hi.millisecondsSince lo)
    (attempts : Nat) (draws : Draws) :
    ((r.drawWithin lo hi (attempts + 1)).run draws).1
      = match lo.addMilliseconds?
          (draws.source draws.position % ((hi.millisecondsSince lo).toNat + 1)) with
        | none => .error .brokenOff
        | some t =>
          match r.write t with
          | .error e => .error (.reason e)
          | .ok s =>
            if r.acceptsText s then .ok (.string s)
            else ((r.drawWithin lo hi attempts).run ⟨draws.source, draws.position + 1⟩).1 := by
  have hoffset : Sampler.between 0 (hi.millisecondsSince lo) draws
      = (((draws.source draws.position % ((hi.millisecondsSince lo).toNat + 1) : Nat) : Int),
        ⟨draws.source, draws.position + 1⟩) := by
    show ((0 : Int) + (_ : Nat), _) = _
    rw [Int.zero_add, Int.sub_zero]
  rw [drawWithin, Attempt.run_between_bind h, hoffset, Int.toNat_natCast]
  cases lo.addMilliseconds? (draws.source draws.position % ((hi.millisecondsSince lo).toNat + 1))
      with
  | none => rfl
  | some t =>
    simp only
    cases r.write t with
    | error e => rfl
    | ok s =>
      simp only
      split <;> rfl

/-- Drawing from a window is broken off if counting goes backwards in it, or if something that is
sampled from it leaves the calendar. -/
theorem drawWithin_brokenOff_iff {r : DateRule} {lo hi : Instant} {attempts : Nat} :
    (∃ draws, ((r.drawWithin lo hi (attempts + 1)).run draws).1 = .error .brokenOff)
      ↔ hi.millisecondsSince lo < 0
        ∨ ∃ n : Nat, n ≤ hi.millisecondsSince lo ∧ lo.addMilliseconds? n = none := by
  by_cases hback : hi.millisecondsSince lo < 0
  · have hbroken : ((r.drawWithin lo hi (attempts + 1)).run ⟨id, 0⟩).1 = .error .brokenOff := by
      rw [drawWithin, Attempt.between, if_pos hback]
      rfl
    exact ⟨fun _ => .inl hback, fun _ => ⟨_, hbroken⟩⟩
  · have hspan : 0 ≤ hi.millisecondsSince lo := Int.not_lt.mp hback
    simp only [hback, false_or]
    constructor
    · -- by induction on the attempts: an attempt is broken off so, or a later one is
      rintro ⟨draws, hdraws⟩
      generalize attempts + 1 = more at hdraws
      induction more generalizing draws with
      | zero => cases hdraws
      | succ more ih =>
        rw [run_drawWithin r hspan] at hdraws
        have hsampled : draws.source draws.position % ((hi.millisecondsSince lo).toNat + 1)
            < (hi.millisecondsSince lo).toNat + 1 := Nat.mod_lt _ (Nat.succ_pos _)
        split at hdraws
        · next hnone => exact ⟨_, by omega, hnone⟩
        · split at hdraws
          · cases hdraws
          · split at hdraws
            · cases hdraws
            · exact ih _ hdraws
    · rintro ⟨n, hn, hnone⟩
      refine ⟨⟨fun _ => n, 0⟩, ?_⟩
      have hsampled : n % ((hi.millisecondsSince lo).toNat + 1) = n := Nat.mod_eq_of_lt (by omega)
      rw [run_drawWithin r hspan, hsampled, hnone]

/-- Drawing is broken off if its window leaves the calendar or something that is sampled from it
does, or if counting goes backwards in it. -/
theorem draw_brokenOff_iff_window {r : DateRule} {now : Instant} :
    (∃ draws, ((r.draw now).run draws).1 = .error .brokenOff)
      ↔ r.window? now = none ∨ ∃ lo hi, r.window? now = some (lo, hi) ∧ lo.atMost hi = true
          ∧ (hi.millisecondsSince lo < 0
            ∨ ∃ n : Nat, n ≤ hi.millisecondsSince lo ∧ lo.addMilliseconds? n = none) := by
  rw [draw]
  cases hwindow : r.window? now with
  | none => exact ⟨fun _ => .inl rfl, fun _ => ⟨⟨id, 0⟩, rfl⟩⟩
  | some ends =>
    obtain ⟨lo, hi⟩ := ends
    simp only [reduceCtorEq, Option.some.injEq, Prod.mk.injEq, false_or]
    split
    · next horder =>
      rw [Error.attempts, drawWithin_brokenOff_iff]
      exact ⟨fun h => ⟨lo, hi, ⟨rfl, rfl⟩, horder, h⟩,
        fun ⟨_, _, ⟨hlo, hhi⟩, _, h⟩ => hlo ▸ hhi ▸ h⟩
    · next horder =>
      refine ⟨fun ⟨draws, h⟩ => ?_, fun ⟨_, _, ⟨hlo, hhi⟩, h, _⟩ => ?_⟩
      · cases h
      · exact absurd (hlo ▸ hhi ▸ h) horder

/-- What is wrong with a window that is in order. -/
theorem brokenOff_within_iff {lo hi : Instant} (hlo : lo.Proper) (hhi : hi.Proper)
    (h : lo.atMost hi = true) :
    (hi.millisecondsSince lo < 0
        ∨ ∃ n : Nat, n ≤ hi.millisecondsSince lo ∧ lo.addMilliseconds? n = none)
      ↔ lo.CountsBack hi ∨ lo.ReachesEnd hi := by
  rw [Instant.millisecondsSince_neg_iff hlo hhi h,
    Instant.exists_addMilliseconds?_eq_none_iff hlo hhi h]

/-- A window around the present stays in the calendar. -/
theorem draw_brokenOff_present {r : DateRule} (hr : r.Sound) {now : Instant} (hnow : Present now)
    (h : r.effectivePeriod ≠ .between) :
    (∃ draws, ((r.draw now).run draws).1 = .error .brokenOff)
      ↔ ∃ lo hi, r.window? now = some (lo, hi) ∧ lo.CountsBack hi := by
  obtain ⟨lo, hi, hopen, plo, phi, hbefore⟩ := openWindow?_present hnow h
  obtain ⟨first, last, hwindow, pfirst, plast, hle⟩ := window?_of_open hr hopen plo phi
  rw [draw_brokenOff_iff_window, hwindow]
  constructor
  · rintro (hnone | ⟨_, _, heq, horder, hwrong⟩)
    · cases hnone
    · cases heq
      rw [brokenOff_within_iff pfirst plast horder] at hwrong
      refine ⟨_, _, rfl, hwrong.resolve_right fun hreaches => ?_⟩
      have hend := ((Instant.carried_isSupported_eq_false_iff plast).mp hreaches.1).2
      omega
  · rintro ⟨_, _, heq, hback⟩
    cases heq
    have horder : first.atMost last = true := hback.atMost
    exact .inr ⟨_, _, rfl, horder, (brokenOff_within_iff pfirst plast horder).mpr (.inl hback)⟩

section Between

variable {r : DateRule} (hperiod : r.effectivePeriod = .between) {now : Instant}

include hperiod

theorem window?_both {lo hi : DateBound} (hlo : r.earliest = some lo) (hhi : r.latest = some hi) :
    r.window? now = some (lo.instant, hi.instant) := by
  rw [window?, openWindow?, hperiod, hlo, hhi]
  show some (Instant.latest _ _, Instant.earliest _ _) = _
  rw [Instant.latest_self, Instant.earliest_self]

theorem window?_onward {lo : DateBound} (hlo : r.earliest = some lo) (hhi : r.latest = none) :
    r.window? now = (lo.instant.addDays? longWindow).map fun hi => (lo.instant, hi) := by
  simp only [window?, openWindow?, hperiod, hlo, hhi]
  cases lo.instant.addDays? longWindow with
  | none => rfl
  | some hi => simp [Instant.latest_self]

theorem window?_back {hi : DateBound} (hlo : r.earliest = none) (hhi : r.latest = some hi) :
    r.window? now = (hi.instant.addDays? (-longWindow)).map fun lo => (lo, hi.instant) := by
  simp only [window?, openWindow?, hperiod, hlo, hhi]
  cases hi.instant.addDays? (-longWindow) with
  | none => rfl
  | some lo => simp [Instant.earliest_self]

/-- The limits of a condition with this period are not both missing. -/
theorem exists_limit (hr : r.Sound) : r.earliest.isSome = true ∨ r.latest.isSome = true := by
  rw [effectivePeriod] at hperiod
  split at hperiod
  · next heq => exact .inl (hr.between (hperiod ▸ heq)).1
  · split at hperiod
    · next hsome => exact (Bool.or_eq_true _ _).mp hsome
    · cases hperiod

/-- The year behind a limit. -/
theorem draw_brokenOff_onward {lo : DateBound} (hlo : r.earliest = some lo)
    (hhi : r.latest = none) (h : lo.instant.Proper) :
    (∃ draws, ((r.draw now).run draws).1 = .error .brokenOff)
      ↔ lo.instant.day.year = Day.lastYear := by
  rw [draw_brokenOff_iff_window, window?_onward hperiod hlo hhi,
    ← addDays?_longWindow_eq_none_iff h]
  cases hhi : lo.instant.addDays? longWindow with
  | none => simp
  | some hi =>
    obtain ⟨phi, hnano, hge, -⟩ := Instant.addSeconds?_some h.nanoseconds (by decide) hhi
    have hplain := Instant.isLeap_eq_false (hnano ▸ Instant.carried_nanoseconds_lt h.nanoseconds)
    have hlong : longWindow * Instant.perDay = 31536000 := rfl
    simp only [Option.map_some, reduceCtorEq, false_or, iff_false]
    rintro ⟨_, _, ⟨⟩, horder, hwrong⟩
    rw [brokenOff_within_iff h phi horder] at hwrong
    obtain ⟨-, hnext, -⟩ | hreaches := hwrong
    · omega
    · exact phi.not_reachesEnd hplain hreaches

/-- The year before a limit. -/
theorem draw_brokenOff_back {hi : DateBound} (hlo : r.earliest = none)
    (hhi : r.latest = some hi) (h : hi.instant.Proper) :
    (∃ draws, ((r.draw now).run draws).1 = .error .brokenOff)
      ↔ hi.instant.carried.day.year = Day.firstYear
        ∨ hi.instant.carried.day.isSupported = false := by
  rw [draw_brokenOff_iff_window, window?_back hperiod hlo hhi,
    ← addDays?_neg_longWindow_eq_none_iff h]
  cases hlo : hi.instant.addDays? (-longWindow) with
  | none => simp
  | some lo =>
    obtain ⟨plo, hnano, -, hle⟩ := Instant.addSeconds?_some h.nanoseconds (by decide) hlo
    have hlong : -longWindow * Instant.perDay = -31536000 := rfl
    have horder : lo.atMost hi.instant = true := Instant.atMost_iff.mpr (.inl (by omega))
    have hforward : ¬ lo.CountsBack hi.instant := fun hback => by
      have := hback.2.1
      omega
    have hwrong := brokenOff_within_iff plo h horder
    simp only [hforward, false_or] at hwrong
    rw [← Instant.reachesEnd_iff_of_nanoseconds h hnano, ← hwrong]
    simp [horder]

end Between

/-- Drawing a date is broken off exactly if the options and the present make a window that nothing
can be drawn from. Otherwise it gives a text or fails. -/
theorem draw_brokenOff_iff {format : Option String} {period : Option Period}
    {earliest latest : Option String} {r : DateRule}
    (h : ofOptions format period earliest latest = .ok r) {now : Instant} (hnow : Present now) :
    (∃ draws, ((r.draw now).run draws).1 = .error .brokenOff) ↔ r.Overruns now := by
  have hr := ofOptions_sound h
  unfold Overruns
  split
  · next hperiod =>
    have hlimit := exists_limit hperiod hr
    cases hlo : r.earliest with
    | none =>
      cases hhi : r.latest with
      | none => simp [hlo, hhi] at hlimit
      | some hi => exact draw_brokenOff_back hperiod hlo hhi (hr.latest hi hhi)
    | some lo =>
      cases hhi : r.latest with
      | none => exact draw_brokenOff_onward hperiod hlo hhi (hr.earliest lo hlo)
      | some hi =>
        have horder := hr.ordered lo hlo hi hhi
        have hwrong := brokenOff_within_iff (hr.earliest lo hlo) (hr.latest hi hhi) horder
        show _ ↔ lo.instant.ReachesEnd hi.instant ∨ lo.instant.CountsBack hi.instant
        rw [or_comm (a := lo.instant.ReachesEnd hi.instant), ← hwrong, draw_brokenOff_iff_window,
          window?_both hperiod hlo hhi]
        simp [horder]
  · next hperiod => exact draw_brokenOff_present hr hnow hperiod

/-- Dates from the last day of the calendar on. -/
def lastDay : DateRule where
  format := some ⟨"YYYY-MM-DD", Calendar.Item.date⟩
  period := none
  earliest := some ⟨"+262142-12-31", Instant.startOf ⟨95026236⟩⟩
  latest := none

/-- Dates from the leap second at the end of a year to the start of the next one. -/
def leapSecond : DateRule where
  format := none
  period := none
  earliest := some ⟨"2016-12-31T23:59:60.5Z", ⟨1483228799, 1500000000⟩⟩
  latest := some ⟨"2017-01-01T00:00:00.2Z", ⟨1483228800, 200000000⟩⟩

theorem draw_brokenOff_iff_limits :
    (ofOptions (some "YYYY-MM-DD") none (some "+262142-12-31") none = .ok lastDay
      ∧ lastDay.Overruns ⟨0, 0⟩
      ∧ ∃ draws, ((lastDay.draw ⟨0, 0⟩).run draws).1 = .error .brokenOff)
    ∧ (ofOptions none none (some "2016-12-31T23:59:60.5Z") (some "2017-01-01T00:00:00.2Z")
        = .ok leapSecond
      ∧ leapSecond.Overruns ⟨0, 0⟩
      ∧ ∃ draws, ((leapSecond.draw ⟨0, 0⟩).run draws).1 = .error .brokenOff)
    ∧ Present ⟨0, 0⟩ := by
  have hnow : Present ⟨0, 0⟩ := ⟨by decide, by decide, by decide⟩
  have hday : ofOptions (some "YYYY-MM-DD") none (some "+262142-12-31") none = .ok lastDay :=
    ok_of_toOption (by decide +kernel)
  have hleap : ofOptions none none (some "2016-12-31T23:59:60.5Z") (some "2017-01-01T00:00:00.2Z")
      = .ok leapSecond := ok_of_toOption (by decide +kernel)
  have hoverDay : lastDay.Overruns ⟨0, 0⟩ := (by decide : Day.year ⟨95026236⟩ = Day.lastYear)
  have hoverLeap : leapSecond.Overruns ⟨0, 0⟩ := .inr ⟨rfl, rfl, by decide⟩
  exact ⟨⟨hday, hoverDay, (draw_brokenOff_iff hday hnow).mpr hoverDay⟩,
    ⟨hleap, hoverLeap, (draw_brokenOff_iff hleap hnow).mpr hoverLeap⟩, hnow⟩

end DateRule

end HttpContract.Constraint
