import HttpContract.Proofs.Calendar.Known
import HttpContract.Proofs.Calendar.Legible
import HttpContract.Proofs.Constraint.DateWindow

/-!
# Constraint.Date — what is written in a format is accepted

A condition on dates without limits accepts the texts that it can read. If its format tells neither
a day nor a timestamp, there are none, and every draw fails. If it does and is legible, the text of
every instant that the format covers is accepted, so that every draw from a window of such instants
succeeds at once (`DateRule.ofOptions_reread`).
-/

namespace HttpContract.Constraint

open Calendar (Day Fields Instant Item Part)

/-- The parts of a date that a format tells. -/
def DateFormat.parts (f : DateFormat) : List Part := f.items.flatMap Item.parts

namespace DateRule

/-- The texts tell a day or a timestamp. -/
def TellsInstant (r : DateRule) : Prop :=
  ∀ f ∈ r.format, Fields.TellsDay f.parts ∨ .timestamp ∈ f.parts

/-- The items of the format can be told apart in every text. -/
def Legible (r : DateRule) : Prop := ∀ f ∈ r.format, Item.Legible f.items

/-- The format tells an instant well enough for it to be read back. -/
def Covers (r : DateRule) (t : Instant) : Prop :=
  t.Plain ∧ ∀ f ∈ r.format, Fields.Covers f.parts t

/-- A condition without limits, whose format is made of proper items. -/
structure Unlimited (r : DateRule) : Prop where
  earliest : r.earliest = none
  latest : r.latest = none
  period : r.effectivePeriod ≠ .between
  format : ∀ f ∈ r.format, ∀ item ∈ f.items, item.Proper

theorem readOptional_proper_format {format : Option String} {f : Option DateFormat}
    (h : readOptional readFormat format = .ok f) : ∀ g ∈ f, ∀ item ∈ g.items, item.Proper := by
  cases format with
  | none =>
    cases h
    nofun
  | some text =>
    obtain ⟨g, hg, rfl⟩ := map_ok.mp h
    rintro _ ⟨⟩
    unfold readFormat at hg
    split at hg
    · next hitems =>
      cases hg
      exact Item.ofFormat?_proper hitems
    · cases hg

theorem ofOptions_unlimited {format : Option String} {period : Option Period} {r : DateRule}
    (h : ofOptions format period none none = .ok r) : r.Unlimited := by
  unfold ofOptions at h
  obtain ⟨f, hf, h⟩ := bind_ok.mp h
  have hproper := readOptional_proper_format hf
  simp only [readOptional, bind, Except.bind] at h
  by_cases hbetween : period = some .between
  · simp [hbetween, throw, throwThe, MonadExceptOf.throw] at h
  · simp only [hbetween, false_and, if_false] at h
    cases h
    refine ⟨rfl, rfl, ?_, hproper⟩
    rw [effectivePeriod]
    cases period with
    | none => exact Period.noConfusion
    | some period => exact fun heq => hbetween (congrArg some heq)

section Unlimited

variable {r : DateRule}

/-! ## Nothing to read -/

theorem acceptsText_of_not_tellsInstant (h : ¬ r.TellsInstant) (s : String) :
    r.acceptsText s = false := by
  simp only [TellsInstant, not_forall] at h
  obtain ⟨f, hf, htells⟩ := h
  have hnone : r.read? s = none := by
    rw [read?, Option.mem_def.mp hf]
    cases hread : Calendar.Read.formatted? f.items s.toList with
    | none => exact hread
    | some t => exact absurd (Calendar.Read.tells_of_formatted? hread) htells
  rw [acceptsText, hnone]

/-- Draws of texts that are not accepted all fail. -/
theorem run_drawWithin_ne_ok (h : ∀ s, r.acceptsText s = false) (lo hi : Instant) (attempts : Nat)
    (draws : Draws) (v : Json) : ((r.drawWithin lo hi attempts).run draws).1 ≠ .ok v := by
  intro hdrawn
  induction attempts generalizing draws with
  | zero => cases hdrawn
  | succ attempts ih =>
    by_cases hforward : 0 ≤ hi.millisecondsSince lo
    · rw [run_drawWithin r hforward] at hdrawn
      split at hdrawn
      · cases hdrawn
      · split at hdrawn
        · cases hdrawn
        · rw [h, if_neg Bool.false_ne_true] at hdrawn
          exact ih _ hdrawn
    · rw [drawWithin, Attempt.between, if_pos (Int.not_le.mp hforward)] at hdrawn
      cases hdrawn

theorem run_draw_ne_ok (h : ∀ s, r.acceptsText s = false) (now : Instant) (draws : Draws)
    (v : Json) : ((r.draw now).run draws).1 ≠ .ok v := by
  rw [draw]
  split
  · intro hdrawn
    cases hdrawn
  · split
    · exact run_drawWithin_ne_ok h _ _ _ draws v
    · intro hdrawn
      cases hdrawn

/-! ## Reading back -/

/-- What is written is accepted. -/
theorem exists_write (hr : r.Unlimited) (htells : r.TellsInstant) (hlegible : r.Legible)
    {t : Instant} (ht : r.Covers t) : ∃ s, r.write t = .ok s ∧ r.acceptsText s = true := by
  have hcontains (u : Instant) : r.contains u = true := by
    rw [contains, hr.earliest, hr.latest]
    rfl
  have haccepts {s : String} (hs : (r.read? s).isSome = true) : r.acceptsText s = true := by
    obtain ⟨u, hu⟩ := Option.isSome_iff_exists.mp hs
    rw [acceptsText, hu]
    exact hcontains u
  cases hformat : r.format with
  | none =>
    refine ⟨t.timestampText, by rw [write, hformat], haccepts ?_⟩
    rw [read?, hformat]
    exact Calendar.Read.iso?_timestampText ht.1
  | some f =>
    obtain ⟨text, htext, hread⟩ := Calendar.Read.formatted?_render (hr.format f hformat)
      (hlegible f hformat) (ht.2 f hformat) (htells f hformat)
    refine ⟨String.ofList text, by simp only [write, hformat, htext], haccepts ?_⟩
    rw [read?, hformat, String.toList_ofList]
    exact hread

/-- The milliseconds of a window that is in order. -/
theorem millisecondsSince_of_plain {lo hi : Instant} (hlo : lo.Plain) (hhi : hi.Plain)
    (h : lo.seconds < hi.seconds) :
    hi.millisecondsSince lo = ((hi.seconds - lo.seconds) * 1000000000
      + (hi.nanoseconds - lo.nanoseconds)) / 1000000 := by
  have hlonano := hlo.nanoseconds
  have hhinano := hhi.nanoseconds
  have hdistance : hi.nanosecondsSince lo
      = (hi.seconds - lo.seconds) * 1000000000 + (hi.nanoseconds - lo.nanoseconds) := by
    rw [Instant.nanosecondsSince, Instant.isLeap_eq_false hlonano, Instant.isLeap_eq_false hhinano]
    simp [Instant.perSecond]
  rw [Instant.millisecondsSince_eq, hdistance, if_pos]
  unfold Instant.perSecond at *
  omega

/-- What is sampled from a window lies between its ends. -/
theorem exists_sample {lo hi : Instant} (hlo : lo.Plain) (hhi : hi.Plain)
    (h : lo.seconds < hi.seconds) {n : Nat} (hn : n ≤ hi.millisecondsSince lo) :
    ∃ t, lo.addMilliseconds? n = some t ∧ t.nanoseconds < Instant.perSecond
      ∧ lo.seconds ≤ t.seconds ∧ t.seconds ≤ hi.seconds := by
  have hlow := Instant.isSupported_iff_seconds.mp hlo.day
  have hhigh := Instant.isSupported_iff_seconds.mp hhi.day
  have hlonano := hlo.nanoseconds
  have hhinano := hhi.nanoseconds
  have hplain := Instant.isLeap_eq_false hlonano
  have hmove : lo.move (n / 1000 : Nat) (n % 1000 * 1000000)
      = Instant.carry (lo.seconds + (n / 1000 : Nat)) (lo.nanoseconds + n % 1000 * 1000000) := by
    rw [Instant.move, hplain, if_neg Bool.false_ne_true]
  have hcarried : (lo.move (n / 1000 : Nat) (n % 1000 * 1000000)).nanoseconds < Instant.perSecond
      ∧ lo.seconds ≤ (lo.move (n / 1000 : Nat) (n % 1000 * 1000000)).seconds
      ∧ (lo.move (n / 1000 : Nat) (n % 1000 * 1000000)).seconds ≤ hi.seconds := by
    rw [millisecondsSince_of_plain hlo hhi h] at hn
    rw [hmove, Instant.carry]
    unfold Instant.perSecond at *
    split
    · simp only
      omega
    · simp only
      omega
  refine ⟨_, if_pos ?_, hcarried⟩
  rw [Instant.isSupported_iff_seconds]
  omega

theorem Covers.between {lo hi t : Instant} (hlo : r.Covers lo) (hhi : r.Covers hi)
    (hlow : lo.seconds ≤ t.seconds) (hhigh : t.seconds ≤ hi.seconds)
    (hnano : t.nanoseconds < Instant.perSecond) : r.Covers t := by
  exact ⟨hlo.1.between hhi.1 hlow hhigh hnano,
    fun f hf => (hlo.2 f hf).between (hhi.2 f hf) hlow hhigh hnano⟩

/-- Every draw from a window that the format covers succeeds at once. -/
theorem run_drawWithin_covers (hr : r.Unlimited) (htells : r.TellsInstant) (hlegible : r.Legible)
    {lo hi : Instant} (hlo : r.Covers lo) (hhi : r.Covers hi) (h : lo.seconds < hi.seconds)
    (attempts : Nat) (draws : Draws) :
    ∃ s, ((r.drawWithin lo hi (attempts + 1)).run draws).1 = .ok (.string s)
      ∧ r.acceptsText s = true := by
  have hforward : 0 ≤ hi.millisecondsSince lo := by
    have hlonano := hlo.1.nanoseconds
    rw [millisecondsSince_of_plain hlo.1 hhi.1 h]
    unfold Instant.perSecond at *
    omega
  have hsampled : ((draws.source draws.position % ((hi.millisecondsSince lo).toNat + 1)
        : Nat) : Int) ≤ hi.millisecondsSince lo := by
    rw [← Int.toNat_of_nonneg hforward]
    exact Int.ofNat_le.mpr (Nat.le_of_lt_succ (Nat.mod_lt _ (Nat.succ_pos _)))
  obtain ⟨t, ht, hnano, hlow, hhigh⟩ := exists_sample hlo.1 hhi.1 h hsampled
  obtain ⟨s, hwrite, haccepts⟩ :=
    exists_write hr htells hlegible (hlo.between hhi hlow hhigh hnano)
  refine ⟨s, ?_, haccepts⟩
  simp only [run_drawWithin r hforward, ht, hwrite, haccepts, if_true]

/-- Without limits nothing is cut off a window. -/
theorem window?_unlimited (hr : r.Unlimited) (now : Instant) :
    r.window? now = r.openWindow? now := by
  rw [window?, hr.earliest, hr.latest]
  cases r.openWindow? now <;> rfl

/-- The window around an instant of four digits is there and in order. -/
theorem exists_window? (hr : r.Unlimited) {now : Instant} (hnow : now.Plain) :
    ∃ lo hi, r.window? now = some (lo, hi) ∧ lo.seconds < hi.seconds := by
  have hseconds := hnow.seconds
  have hnano : now.nanoseconds < 2 * Instant.perSecond := by
    have := hnow.nanoseconds
    omega
  obtain ⟨lo, hi, hopen, -, -, horder, -⟩ := exists_openWindow? hnano
    (by rw [Instant.firstSecond_eq]; omega) (by rw [Instant.endSecond_eq]; omega) hr.period
  exact ⟨lo, hi, by rw [window?_unlimited hr, hopen], horder⟩

end Unlimited

/-- A condition without limits accepts what it writes. In a format that tells neither a day nor a
timestamp there is nothing to accept and no draw succeeds. In any other one that is legible, the
text of every instant that it covers is accepted, and every draw from a window that it covers
succeeds. -/
theorem ofOptions_reread {format : Option String} {period : Option Period} {r : DateRule}
    (h : ofOptions format period none none = .ok r) :
    (¬ r.TellsInstant → (∀ v, r.accepts v = false)
        ∧ ∀ now draws v, ((r.draw now).run draws).1 ≠ .ok v)
      ∧ (r.TellsInstant → r.Legible →
        (∀ t, r.Covers t → ∃ s, r.write t = .ok s ∧ r.accepts (.string s) = true)
        ∧ ∀ now, now.Plain → ∃ lo hi, r.window? now = some (lo, hi)
          ∧ (r.Covers lo → r.Covers hi → ∀ draws, ∃ s,
            ((r.draw now).run draws).1 = .ok (.string s) ∧ r.accepts (.string s) = true)) := by
  have hr := ofOptions_unlimited h
  refine ⟨fun hnot => ⟨fun v => ?_, ?_⟩, fun htells hlegible => ⟨fun t ht => ?_,
    fun now hnow => ?_⟩⟩
  · rw [accepts]
    split
    · exact acceptsText_of_not_tellsInstant hnot _
    · rfl
  · exact run_draw_ne_ok (acceptsText_of_not_tellsInstant hnot)
  · exact exists_write hr htells hlegible ht
  · obtain ⟨lo, hi, hwindow, horder⟩ := exists_window? hr hnow
    refine ⟨lo, hi, hwindow, fun hlo hhi draws => ?_⟩
    have hsorted : lo.atMost hi = true := Instant.atMost_iff.mpr (.inl horder)
    rw [draw, hwindow]
    simp only [hsorted, if_true]
    exact run_drawWithin_covers hr htells hlegible hlo hhi horder 31 draws

/-- Dates with a time, to the second. -/
def dateAndTime : DateRule where
  format := some ⟨"YYYY-MM-DD HH:mm:ss", Item.date ++ .blank ' ' :: Item.timeOfDay⟩
  period := none
  earliest := none
  latest := none

theorem ofOptions_reread_dateAndTime :
    ofOptions (some "YYYY-MM-DD HH:mm:ss") none none none = .ok dateAndTime
      ∧ dateAndTime.TellsInstant ∧ dateAndTime.Legible
      ∧ dateAndTime.Covers ⟨1700000000, 5⟩ ∧ dateAndTime.Covers ⟨1699913600, 5⟩
      ∧ ∀ draws, ∃ s, ((dateAndTime.draw ⟨1700000000, 5⟩).run draws).1 = .ok (.string s)
        ∧ dateAndTime.accepts (.string s) = true := by
  have hread : ofOptions (some "YYYY-MM-DD HH:mm:ss") none none none = .ok dateAndTime :=
    ok_of_toOption (by decide +kernel)
  have htells : dateAndTime.TellsInstant := by
    rintro f ⟨⟩
    decide
  have hlegible : dateAndTime.Legible := by
    rintro f ⟨⟩
    decide
  have hcovers (t : Instant) (ht : t.Plain) : dateAndTime.Covers t := by
    refine ⟨ht, ?_⟩
    rintro f ⟨⟩
    exact ⟨ht, ⟨fun h => absurd h (by decide), fun h => absurd h (by decide)⟩,
      fun _ => .inl (.inl (by decide)), fun h => absurd h (by decide)⟩
  have hnow : Instant.Plain ⟨1700000000, 5⟩ := ⟨by decide +kernel, by decide⟩
  have hyesterday : Instant.Plain ⟨1699913600, 5⟩ := ⟨by decide +kernel, by decide⟩
  refine ⟨hread, htells, hlegible, hcovers _ hnow, hcovers _ hyesterday, ?_⟩
  obtain ⟨lo, hi, hwindow, hdraw⟩ := ((ofOptions_reread hread).2 htells hlegible).2 _ hnow
  have hends : dateAndTime.window? ⟨1700000000, 5⟩
      = some (⟨1699913600, 5⟩, ⟨1700000000, 5⟩) := by decide +kernel
  rw [hends, Option.some.injEq, Prod.mk.injEq] at hwindow
  obtain ⟨rfl, rfl⟩ := hwindow
  exact hdraw (hcovers _ hyesterday) (hcovers _ hnow)

/-- Times of day. -/
def timeOfDay : DateRule where
  format := some ⟨"HH:mm", Item.hourAndMinute⟩
  period := none
  earliest := none
  latest := none

/-- Conditions without limits that do not accept what they write: one that tells no day, of which no
draw succeeds, and others at an instant that they write in an illegible way or do not cover. -/
theorem exists_write_rejected :
    ofOptions (some "HH:mm") none none none = .ok timeOfDay
      ∧ (∀ now draws v, ((timeOfDay.draw now).run draws).1 ≠ .ok v)
      ∧ ∀ c ∈ [("HH:mm", (⟨0, 0⟩ : Instant)), ("DMYYYY", ⟨1612137600, 0⟩), ("X", ⟨-1, 0⟩),
          ("YY-MM-DD dddd", ⟨3313526400, 0⟩), ("%Y-%m-%d %3f %6f", ⟨0, 123456789⟩),
          ("%Y-%m-%d %::z", ⟨0, 0⟩), ("%Z/%Y-%m-%d", ⟨0, 0⟩)],
        ((ofOptions (some c.1) none none none).toOption.any fun r =>
          (r.write c.2).toOption.any fun s => !r.acceptsText s) = true := by
  have hread : ofOptions (some "HH:mm") none none none = .ok timeOfDay :=
    ok_of_toOption (by decide +kernel)
  have htells : ¬ timeOfDay.TellsInstant := by
    intro h
    exact absurd (h _ rfl) (by decide)
  exact ⟨hread, run_draw_ne_ok (acceptsText_of_not_tellsInstant htells), by decide +kernel⟩

end DateRule

end HttpContract.Constraint
