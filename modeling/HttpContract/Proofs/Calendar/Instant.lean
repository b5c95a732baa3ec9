import HttpContract.Proofs.Calendar.Day
import HttpContract.Calendar.Instant

/-!
# Calendar.Instant — moving inside the calendar

The instants of the supported years are those whose seconds lie between two constants
(`isSupported_iff_seconds`). A move by seconds counts from the second itself or, out of a leap
second and backwards, from the one behind it (`carried`). Milliseconds drawn up to the distance of
two instants stay in the calendar, with one exception: the later instant is in a leap second at its
very end (`exists_addMilliseconds?_eq_none_iff`).
-/

namespace HttpContract.Calendar.Instant

/-- The instant lies in a supported year, and at most one second is added to its second. -/
structure Proper (t : Instant) : Prop where
  day : t.day.isSupported = true
  nanoseconds : t.nanoseconds < 2 * perSecond

/-- The first second of the calendar. -/
def firstSecond : Int := (Day.ofYearOffset Day.firstYear 0).number * perDay

/-- The first second behind the calendar. -/
def endSecond : Int := (Day.ofYearOffset (Day.lastYear + 1) 0).number * perDay

/-- The instant without leap seconds: such a second counts as the one behind it. -/
def carried (t : Instant) : Instant := carry t.seconds t.nanoseconds

theorem firstSecond_eq : firstSecond = -8334601228800 := rfl

theorem endSecond_eq : endSecond = 8210266876800 := rfl

theorem isSupported_iff_seconds {t : Instant} :
    t.day.isSupported = true ↔ firstSecond ≤ t.seconds ∧ t.seconds < endSecond := by
  rw [Day.isSupported, Bool.and_eq_true, decide_eq_true_eq, decide_eq_true_eq, firstSecond,
    endSecond, day, perDay]
  generalize (Day.ofYearOffset Day.firstYear 0).number = first
  generalize (Day.ofYearOffset (Day.lastYear + 1) 0).number = behind
  simp only
  omega

theorem supported?_isSome_iff {t : Instant} :
    t.supported?.isSome = true ↔ firstSecond ≤ t.seconds ∧ t.seconds < endSecond := by
  rw [← isSupported_iff_seconds, supported?]
  split <;> simp [*]

theorem supported?_eq_none_iff {t : Instant} :
    t.supported? = none ↔ t.seconds < firstSecond ∨ endSecond ≤ t.seconds := by
  rw [← Option.not_isSome_iff_eq_none, supported?_isSome_iff]
  omega

theorem supported?_proper {s t : Instant} (h : supported? s = some t)
    (hn : s.nanoseconds < 2 * perSecond) : t.Proper := by
  rw [supported?] at h
  split at h
  · next hday =>
    cases h
    exact ⟨hday, hn⟩
  · cases h

/-- A year has begun by an instant if its first second has. -/
theorem le_year_iff {y : Int} {t : Instant} :
    y ≤ t.day.year ↔ (Day.daysBefore y - Day.epoch) * perDay ≤ t.seconds := by
  rw [Day.le_year_iff, day, perDay]
  simp only
  omega

theorem year_mono {s t : Instant} (h : s.seconds ≤ t.seconds) : s.day.year ≤ t.day.year :=
  le_year_iff.mpr (Int.le_trans (le_year_iff.mp (Int.le_refl _)) h)

theorem weekYear_mono {s t : Instant} (h : s.seconds ≤ t.seconds) :
    s.day.weekYear ≤ t.day.weekYear := by
  have hthursday : s.day.thursday.number ≤ t.day.thursday.number := by
    simp only [Day.thursday, Day.weekday, day, perDay]
    omega
  have hfirst : Day.daysBefore s.day.weekYear ≤ s.day.thursday.number + Day.epoch :=
    Day.le_year_iff.mp (Int.le_refl _)
  exact Day.le_year_iff.mpr (by omega)

/-! ## Order -/

theorem atMost_iff {s t : Instant} :
    s.atMost t = true ↔ s.seconds < t.seconds
      ∨ s.seconds = t.seconds ∧ s.nanoseconds ≤ t.nanoseconds := by
  simp [atMost]

theorem seconds_le_of_atMost {s t : Instant} (h : s.atMost t = true) : s.seconds ≤ t.seconds := by
  rw [atMost_iff] at h
  omega

theorem atMost_of_not {s t : Instant} (h : ¬ s.atMost t = true) : t.atMost s = true := by
  rw [atMost_iff] at *
  omega

/-- The earlier of two instants is one of them and not after either. -/
theorem earliest_spec (s t : Instant) :
    (s.earliest t = s ∨ s.earliest t = t) ∧ (s.earliest t).seconds ≤ s.seconds
      ∧ (s.earliest t).seconds ≤ t.seconds := by
  rw [earliest]
  split
  · next h => exact ⟨.inl rfl, Int.le_refl _, seconds_le_of_atMost h⟩
  · next h => exact ⟨.inr rfl, seconds_le_of_atMost (atMost_of_not h), Int.le_refl _⟩

/-- The later of two instants is one of them and not before either. -/
theorem latest_spec (s t : Instant) :
    (s.latest t = s ∨ s.latest t = t) ∧ s.seconds ≤ (s.latest t).seconds
      ∧ t.seconds ≤ (s.latest t).seconds := by
  rw [latest]
  split
  · next h => exact ⟨.inr rfl, seconds_le_of_atMost h, Int.le_refl _⟩
  · next h => exact ⟨.inl rfl, Int.le_refl _, seconds_le_of_atMost (atMost_of_not h)⟩

theorem atMost_refl (t : Instant) : t.atMost t = true := by
  rw [atMost_iff]
  exact .inr ⟨rfl, Nat.le_refl _⟩

theorem earliest_self (t : Instant) : t.earliest t = t := by
  rw [earliest, ite_self]

theorem latest_self (t : Instant) : t.latest t = t := by
  rw [latest, ite_self]

/-! ## Moving -/

theorem isLeap_iff {t : Instant} : t.isLeap = true ↔ perSecond ≤ t.nanoseconds := decide_eq_true_iff

theorem isLeap_eq_false {t : Instant} (h : t.nanoseconds < perSecond) : t.isLeap = false :=
  decide_eq_false (Nat.not_le.mpr h)

section Moving

variable {t : Instant} (h : t.nanoseconds < 2 * perSecond)

include h

theorem carried_eq : t.carried.seconds = t.seconds + (if t.isLeap then 1 else 0)
    ∧ t.carried.nanoseconds = t.nanoseconds % perSecond := by
  unfold carried carry isLeap perSecond at *
  by_cases hleap : 1000000000 ≤ t.nanoseconds
  · simp only [hleap, decide_true, if_true, true_and]
    omega
  · simp only [hleap, decide_false, if_false, Bool.false_eq_true, Int.add_zero, true_and]
    omega

theorem carried_nanoseconds_lt : t.carried.nanoseconds < perSecond := by
  rw [(carried_eq h).2]
  exact Nat.mod_lt _ (by decide)

/-- A move forwards by seconds. -/
theorem move_of_pos {seconds : Int} (hpos : 0 < seconds) :
    t.move seconds 0 = ⟨t.seconds + seconds, t.carried.nanoseconds⟩ := by
  rw [(carried_eq h).2, move, isLeap]
  unfold carry perSecond at *
  split
  · next hleap =>
    rw [decide_eq_true_eq] at hleap
    rw [if_pos (.inl hpos), if_neg (by omega), Instant.mk.injEq]
    omega
  · next hleap =>
    rw [decide_eq_true_eq] at hleap
    rw [if_neg (by omega), Instant.mk.injEq]
    omega

/-- A move backwards by seconds. -/
theorem move_of_neg {seconds : Int} (hneg : seconds < 0) :
    t.move seconds 0 = ⟨t.carried.seconds + seconds, t.carried.nanoseconds⟩ := by
  rw [(carried_eq h).1, (carried_eq h).2, move, isLeap]
  unfold carry perSecond at *
  split
  · next hleap =>
    rw [decide_eq_true_eq] at hleap
    have hstay : ¬(0 < seconds ∨ 2 * 1000000000 ≤ t.nanoseconds + 0) := by omega
    have hplain : ¬ 1000000000 ≤ t.nanoseconds - 1000000000 + 0 := by omega
    simp only [hstay, hplain, if_false, Instant.mk.injEq, true_and]
    omega
  · next hleap =>
    rw [decide_eq_true_eq] at hleap
    rw [if_neg (by omega), Instant.mk.injEq]
    omega

/-- What a move by seconds leads to, in either direction. -/
theorem addSeconds?_some {seconds : Int} (hne : seconds ≠ 0) {u : Instant}
    (hu : t.addSeconds? seconds = some u) :
    u.Proper ∧ u.nanoseconds = t.carried.nanoseconds ∧ t.seconds + seconds ≤ u.seconds
      ∧ u.seconds ≤ t.seconds + seconds + 1 := by
  have hcarried := (carried_eq h).1
  have hnano := carried_nanoseconds_lt h
  have hmoved : (t.move seconds 0).nanoseconds = t.carried.nanoseconds
      ∧ t.seconds + seconds ≤ (t.move seconds 0).seconds
      ∧ (t.move seconds 0).seconds ≤ t.seconds + seconds + 1 := by
    rcases Int.lt_or_gt_of_ne hne with hneg | hpos
    · rw [move_of_neg h hneg, hcarried]
      split <;> simp only [true_and] <;> omega
    · rw [move_of_pos h hpos]
      simp only [true_and]
      omega
  rw [addSeconds?] at hu
  have hsame : u = t.move seconds 0 := by
    rw [supported?] at hu
    split at hu
    · exact (Option.some.inj hu).symm
    · cases hu
  rw [← hsame] at hmoved
  refine ⟨supported?_proper hu ?_, hmoved⟩
  rw [← hsame, hmoved.1]
  exact Nat.lt_trans hnano (by decide)

/-- The second that a move by milliseconds leads to. -/
theorem move_milliseconds (n : Nat) :
    (t.move (n / 1000 : Nat) (n % 1000 * 1000000)).seconds
      = t.seconds + ((t.nanoseconds % perSecond + n * 1000000) / perSecond : Nat) := by
  rw [move, isLeap]
  unfold carry perSecond at *
  split
  · next hleap =>
    rw [decide_eq_true_eq] at hleap
    split
    · split
      · simp only
        omega
      · simp only
        omega
    · rw [if_neg (by omega)]
      simp only
      omega
  · next hleap =>
    rw [decide_eq_true_eq] at hleap
    split
    · simp only
      omega
    · simp only
      omega

end Moving

theorem addMilliseconds?_eq_none_iff {t : Instant} (h : t.Proper) {n : Nat} :
    t.addMilliseconds? n = none ↔
      endSecond ≤ t.seconds + ((t.nanoseconds % perSecond + n * 1000000) / perSecond : Nat) := by
  rw [addMilliseconds?, supported?_eq_none_iff, move_milliseconds h.nanoseconds]
  have := (isSupported_iff_seconds.mp h.day).1
  generalize (t.nanoseconds % perSecond + n * 1000000) / perSecond = passed
  omega

/-- The later of two instants is in a leap second at the end of the calendar, and milliseconds
counted from the earlier one reach the end. -/
def ReachesEnd (lo hi : Instant) : Prop :=
  hi.carried.day.isSupported = false ∧ ¬(lo.isLeap = true ∧ lo.secondOfDay = perDay - 1)
    ∧ lo.nanoseconds % 1000000 ≤ hi.nanoseconds - perSecond

theorem carried_isSupported_eq_false_iff {t : Instant} (h : t.Proper) :
    t.carried.day.isSupported = false ↔ t.isLeap = true ∧ t.seconds + 1 = endSecond := by
  rw [← Bool.not_eq_true, isSupported_iff_seconds, (carried_eq h.nanoseconds).1]
  have := isSupported_iff_seconds.mp h.day
  simp only [firstSecond_eq, endSecond_eq] at *
  split
  · next hleap =>
    simp only [hleap, true_and]
    omega
  · next hleap =>
    simp [hleap]
    omega

theorem Proper.not_reachesEnd {lo hi : Instant} (h : hi.Proper) (hleap : hi.isLeap = false) :
    ¬ lo.ReachesEnd hi := by
  rintro ⟨hend, -⟩
  rw [carried_isSupported_eq_false_iff h, hleap] at hend
  exact Bool.false_ne_true hend.1

/-- Whole milliseconds back from an instant, they reach the end again. -/
theorem reachesEnd_iff_of_nanoseconds {lo hi : Instant} (h : hi.Proper)
    (hnano : lo.nanoseconds = hi.carried.nanoseconds) :
    lo.ReachesEnd hi ↔ hi.carried.day.isSupported = false := by
  refine ⟨And.left, fun hend => ⟨hend, fun hleap => ?_, ?_⟩⟩
  · have hplain := isLeap_eq_false (hnano ▸ carried_nanoseconds_lt h.nanoseconds)
    exact Bool.false_ne_true (hplain.symm.trans hleap.1)
  · have hleap := isLeap_iff.mp ((carried_isSupported_eq_false_iff h).mp hend).1
    have hbound := h.nanoseconds
    rw [hnano, (carried_eq h.nanoseconds).2]
    unfold perSecond at *
    omega

/-- The distance of two instants: within a day a leap second counts. -/
theorem nanosecondsSince_eq (lo hi : Instant) : ∃ extra : Int,
    hi.nanosecondsSince lo = (hi.seconds - lo.seconds + extra) * 1000000000
        + (hi.nanoseconds - lo.nanoseconds)
      ∧ ((lo.secondOfDay < hi.secondOfDay ∧ lo.isLeap = true) ∧ extra = 1
        ∨ (hi.secondOfDay < lo.secondOfDay ∧ hi.isLeap = true) ∧ extra = -1
        ∨ ¬(lo.secondOfDay < hi.secondOfDay ∧ lo.isLeap = true)
          ∧ ¬(hi.secondOfDay < lo.secondOfDay ∧ hi.isLeap = true) ∧ extra = 0) := by
  refine ⟨_, rfl, ?_⟩
  by_cases hlo : lo.secondOfDay < hi.secondOfDay ∧ lo.isLeap = true
  · simp [hlo]
  · by_cases hhi : hi.secondOfDay < lo.secondOfDay ∧ hi.isLeap = true
    · have hnot : ¬ lo.secondOfDay < hi.secondOfDay := by omega
      simp [hhi, hnot]
    · simp only [Bool.and_eq_true, decide_eq_true_eq, hlo, hhi, if_false]
      simp

/-- From the last second of a day to the first of the next, a leap second counts at most as far as
the next day has gone on. -/
theorem nanosecondsSince_of_next {lo hi : Instant} (hhi : hi.Proper)
    (hlast : lo.secondOfDay = perDay - 1) (hnext : hi.seconds = lo.seconds + 1) :
    hi.nanosecondsSince lo = (hi.nanoseconds % perSecond + perSecond : Nat) - lo.nanoseconds := by
  obtain ⟨extra, hdistance, hextra⟩ := nanosecondsSince_eq lo hi
  have hnano := hhi.nanoseconds
  simp only [isLeap_iff, secondOfDay, perDay, perSecond] at *
  omega

/-- Nothing else makes an earlier instant seem the later one. -/
theorem nanosecondsSince_nonneg {lo hi : Instant} (hlo : lo.Proper) (h : lo.atMost hi = true)
    (hnext : ¬(lo.secondOfDay = perDay - 1 ∧ hi.seconds = lo.seconds + 1)) :
    0 ≤ hi.nanosecondsSince lo := by
  obtain ⟨extra, hdistance, hextra⟩ := nanosecondsSince_eq lo hi
  have hnano := hlo.nanoseconds
  rw [atMost_iff] at h
  simp only [isLeap_iff, secondOfDay, perDay, perSecond] at *
  omega

/-- Counting from the earlier of two instants to the later one goes backwards: the earlier one is
farther into the leap second at the end of a day than the later one into the next day, by a
millisecond at least. -/
def CountsBack (lo hi : Instant) : Prop :=
  lo.secondOfDay = perDay - 1 ∧ hi.seconds = lo.seconds + 1
    ∧ hi.nanoseconds % perSecond + 1000000 ≤ lo.nanoseconds - perSecond

/-- The rest is cut off towards zero on both sides of it. -/
theorem millisecondsSince_eq (lo hi : Instant) :
    hi.millisecondsSince lo = if 0 ≤ hi.nanosecondsSince lo then hi.nanosecondsSince lo / 1000000
      else -(-hi.nanosecondsSince lo / 1000000) := by
  rw [millisecondsSince]
  generalize hi.nanosecondsSince lo = distance
  split
  · next h => exact Int.tdiv_eq_ediv_of_nonneg h
  · next h => rw [← Int.tdiv_eq_ediv_of_nonneg (by omega), Int.neg_tdiv, Int.neg_neg]

theorem millisecondsSince_neg_iff_nanoseconds {lo hi : Instant} :
    hi.millisecondsSince lo < 0 ↔ hi.nanosecondsSince lo ≤ -1000000 := by
  rw [millisecondsSince_eq]
  omega

theorem le_millisecondsSince_iff {lo hi : Instant} {n : Nat} (hn : 0 < n) :
    (n : Int) ≤ hi.millisecondsSince lo ↔ (n : Int) * 1000000 ≤ hi.nanosecondsSince lo := by
  rw [millisecondsSince_eq]
  omega

theorem CountsBack.atMost {lo hi : Instant} (h : lo.CountsBack hi) : lo.atMost hi = true :=
  atMost_iff.mpr (.inl (by have := h.2.1; omega))

theorem millisecondsSince_neg_iff {lo hi : Instant} (hlo : lo.Proper) (hhi : hi.Proper)
    (h : lo.atMost hi = true) : hi.millisecondsSince lo < 0 ↔ lo.CountsBack hi := by
  rw [millisecondsSince_neg_iff_nanoseconds, CountsBack]
  by_cases hnext : lo.secondOfDay = perDay - 1 ∧ hi.seconds = lo.seconds + 1
  · rw [nanosecondsSince_of_next hhi hnext.1 hnext.2]
    simp only [hnext, true_and, perSecond]
    omega
  · have := nanosecondsSince_nonneg hlo h hnext
    constructor
    · omega
    · rintro ⟨hlast, hfirst, -⟩
      exact absurd ⟨hlast, hfirst⟩ hnext

/-- Among the instants that are counted in milliseconds from one to a later one, one is beyond the
calendar only if the later one is in a leap second at its end. -/
theorem exists_addMilliseconds?_eq_none_iff {lo hi : Instant} (hlo : lo.Proper) (hhi : hi.Proper)
    (h : lo.atMost hi = true) :
    (∃ n : Nat, n ≤ hi.millisecondsSince lo ∧ lo.addMilliseconds? n = none)
      ↔ lo.ReachesEnd hi := by
  have hlow := isSupported_iff_seconds.mp hlo.day
  have hhigh := isSupported_iff_seconds.mp hhi.day
  have hlownano := hlo.nanoseconds
  have hhighnano := hhi.nanoseconds
  -- no milliseconds stay where they are, so that the rest that is cut off does not matter
  have hsome : ∀ n : Nat, lo.addMilliseconds? n = none → 0 < n := by
    intro n hnone
    rw [addMilliseconds?_eq_none_iff hlo, perSecond] at hnone
    omega
  have hcount : (∃ n : Nat, n ≤ hi.millisecondsSince lo ∧ lo.addMilliseconds? n = none) ↔
      ∃ n : Nat, (n : Int) * 1000000 ≤ hi.nanosecondsSince lo ∧ lo.addMilliseconds? n = none :=
    exists_congr fun n => and_congr_left fun hnone => le_millisecondsSince_iff (hsome n hnone)
  rw [hcount, ReachesEnd, carried_isSupported_eq_false_iff hhi]
  simp only [addMilliseconds?_eq_none_iff hlo]
  obtain ⟨extra, hdistance, hextra⟩ := nanosecondsSince_eq lo hi
  rw [atMost_iff] at h
  rw [hdistance]
  simp only [isLeap_iff, secondOfDay, perDay, perSecond, endSecond_eq, firstSecond_eq] at *
  clear hcount hsome hlo hhi hdistance
  obtain ⟨s, m⟩ := lo
  obtain ⟨t, n⟩ := hi
  simp only at *
  constructor
  · rintro ⟨k, hk, hend⟩
    omega
  · rintro ⟨⟨hleap, hend⟩, hnot, hrest⟩
    refine ⟨(((t - s + extra) * 1000000000 + (n - m)) / 1000000).toNat, ?_, ?_⟩
    · omega
    · omega

end HttpContract.Calendar.Instant
