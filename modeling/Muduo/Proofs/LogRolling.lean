/-
What `LogFile` puts where.

The name of a file shows the second of its creation, so files that are created one after the
other in different seconds have different names.  A new day is noticed at the latest when as many
records have been written as there are between two checks, because a check at which the day has
not changed leaves a file without a record of a later day.
-/
import Muduo.Base.LogFile

namespace Base

open Lib

/-! ### Dates -/

/-- The day of a date. -/
def dayNumber (date : Int × Nat × Nat) : Int :=
  let m := if 3 ≤ date.2.1 then date.2.1 - 3 else date.2.1 + 9
  let year := if 3 ≤ date.2.1 then date.1 else date.1 - 1
  let y := (year % 400).toNat
  146097 * (year / 400) + (36524 * (y / 100) + 1461 * (y % 100 / 4) + 365 * (y % 4)
    + ((153 * m + 2) / 5 + date.2.2 - 1) : Nat) - 719468

/-- A month has its days to itself. -/
theorem month_day {d : Nat} (h : d ≤ 365) :
    (5 * d + 2) / 153 ≤ 11 ∧ (153 * ((5 * d + 2) / 153) + 2) / 5 ≤ d := by
  omega

/-- The groups of years that a day of the 400 years is in. -/
theorem years_day {d c q y : Nat} (h : d < 146097) (hc : c = min (d / 36524) 3)
    (hq : q = (d - 36524 * c) / 1461) (hy : y = min ((d - 36524 * c) % 1461 / 365) 3) :
    c ≤ 3 ∧ q < 25 ∧ y ≤ 3 ∧ 36524 * c + 1461 * q + 365 * y ≤ d ∧
      d ≤ 36524 * c + 1461 * q + 365 * y + 365 := by
  omega

/-- A day is in a group of years and in a year of it, and the date is read off that. -/
theorem civil_eq (day : Int) : ∃ c q y d m : Nat, c ≤ 3 ∧ q < 25 ∧ y ≤ 3 ∧ d ≤ 365 ∧
    m = (5 * d + 2) / 153 ∧
    day + 719468
      = 146097 * ((day + 719468) / 146097) + (36524 * c + 1461 * q + 365 * y + d : Nat) ∧
    civil day = (400 * ((day + 719468) / 146097) + (100 * c + 4 * q + y : Nat)
      + if m < 10 then 0 else 1, if m < 10 then m + 3 else m - 9, d - (153 * m + 2) / 5 + 1) := by
  set z := day + 719468 with hz
  set d := (z % 146097).toNat with hd
  have hlt : d < 146097 := by omega
  have hera : z = 146097 * (z / 146097) + (d : Int) := by omega
  obtain ⟨hc, hq, hy, hle, hge⟩ := years_day hlt rfl rfl rfl
  have hgroup := Nat.div_add_mod (d - 36524 * min (d / 36524) 3) 1461
  refine ⟨_, _, _, _, _, hc, hq, hy, ?_, rfl, ?_, rfl⟩
  -- how the groups are found does not matter any more
  all_goals
    rw [← hz, ← hd]
    generalize min ((d - 36524 * min (d / 36524) 3) % 1461 / 365) 3 = y at hle hge ⊢
    generalize (d - 36524 * min (d / 36524) 3) % 1461 = r at hgroup ⊢
    generalize (d - 36524 * min (d / 36524) 3) / 1461 = q at hle hge hgroup ⊢
    generalize min (d / 36524) 3 = c at hle hge hgroup ⊢
    omega

/-- Different days have different dates. -/
theorem dayNumber_civil (day : Int) : dayNumber (civil day) = day := by
  obtain ⟨c, q, y, d, m, hc, hq, hy, hd, hm, hday, hcivil⟩ := civil_eq day
  set era := (day + 719468) / 146097
  set n := 100 * c + 4 * q + y with hn
  obtain ⟨hm11, hmle⟩ := month_day hd
  rw [← hm] at hm11 hmle
  have hn400 : n < 400 := by omega
  have hlow : n % 100 = 4 * q + y := by omega
  have hcqy : n / 100 = c ∧ n % 100 / 4 = q ∧ n % 4 = y :=
    ⟨by omega, by rw [hlow]; omega, by omega⟩
  have hera : (400 * era + n) / 400 = era := by omega
  have hyear : ((400 * era + n) % 400).toNat = n := by omega
  -- the month and the year that begins in March
  have hmonth : (if 3 ≤ (if m < 10 then m + 3 else m - 9)
      then (if m < 10 then m + 3 else m - 9) - 3
      else (if m < 10 then m + 3 else m - 9) + 9) = m := by
    split_ifs <;> omega
  have hmarch : (if 3 ≤ (if m < 10 then m + 3 else m - 9)
      then 400 * era + (n : Int) + (if m < 10 then 0 else 1)
      else 400 * era + (n : Int) + (if m < 10 then 0 else 1) - 1) = 400 * era + n := by
    split_ifs <;> omega
  rw [hcivil, dayNumber]
  simp only [hmonth, hmarch, hera, hyear, hcqy]
  omega

theorem civil_injective : Function.Injective civil :=
  Function.LeftInverse.injective dayNumber_civil

/-- What `gmtime_r` tells. -/
theorem gmtime_fields {t : Int} {tm : Tm} (h : gmtime t = some tm) :
    civil (t / kRollPerSeconds) = (tm.year, tm.mon, tm.mday) ∧
      (t % kRollPerSeconds).toNat / 3600 = tm.hour ∧
      (t % kRollPerSeconds).toNat / 60 % 60 = tm.min ∧
      (t % kRollPerSeconds).toNat % 60 = tm.sec := by
  simp only [gmtime] at h
  split at h
  · cases h
    exact ⟨rfl, rfl, rfl, rfl⟩
  · cases h

/-- Different seconds have different times. -/
theorem gmtime_inj {t t' : Int} {tm : Tm} (h : gmtime t = some tm) (h' : gmtime t' = some tm) :
    t = t' := by
  obtain ⟨hdate, hhour, hmin, hsec⟩ := gmtime_fields h
  obtain ⟨hdate', hhour', hmin', hsec'⟩ := gmtime_fields h'
  have hday := civil_injective (hdate.trans hdate'.symm)
  unfold kRollPerSeconds at hday hhour hhour' hmin hmin' hsec hsec'
  omega

/-- The fields have two digits, and the year is not negative. -/
structure Tm.Printable (tm : Tm) : Prop where
  year : 0 ≤ tm.year
  mon : tm.mon < 100
  mday : tm.mday < 100
  hour : tm.hour < 100
  min : tm.min < 100
  sec : tm.sec < 100

theorem civil_bounds {day : Int} (h : 0 ≤ day) :
    0 ≤ (civil day).1 ∧ (civil day).2.1 < 100 ∧ (civil day).2.2 < 100 := by
  obtain ⟨c, q, y, d, m, -, -, -, hd, hm, hday, hcivil⟩ := civil_eq day
  have hmonth : m ≤ 11 := by omega
  have hmday : d ≤ (153 * m + 2) / 5 + 31 := by omega
  rw [hcivil]
  dsimp only
  refine ⟨?_, ?_, by omega⟩
  · split <;> omega
  · split <;> omega

theorem printable_gmtime {t : Int} (ht : 0 ≤ t) {tm : Tm} (h : gmtime t = some tm) :
    tm.Printable := by
  obtain ⟨hdate, hhour, hmin, hsec⟩ := gmtime_fields h
  have hpos : 0 ≤ t / kRollPerSeconds := by
    unfold kRollPerSeconds
    omega
  obtain ⟨hyear, hmon, hmday⟩ := civil_bounds hpos
  rw [hdate] at hyear hmon hmday
  unfold kRollPerSeconds at hhour hmin hsec
  exact ⟨hyear, hmon, hmday, by omega, by omega, by omega⟩

/-! ### Names -/

theorem isDigit_twoDigits {n : Nat} (h : n < 100) : ∀ c ∈ twoDigits n, isDigit c = true := by
  simp only [twoDigits, List.mem_cons, List.not_mem_nil, or_false]
  rintro c (rfl | rfl)
  · exact isDigit_digitChar (by omega)
  · exact isDigit_digitChar (by omega)

theorem twoDigits_inj {n n' : Nat} (h : n < 100) (h' : n' < 100)
    (heq : twoDigits n = twoDigits n') : n = n' := by
  have hvalue : ∀ {n : Nat}, n < 100 → digitsValue (twoDigits n) = n := by
    intro n hn
    show 10 * (10 * 0 + ((digitChar (n / 10)).toNat - 48)) + ((digitChar (n % 10)).toNat - 48) = n
    rw [toNat_digitChar (by omega), toNat_digitChar (by omega)]
    omega
  rw [← hvalue h, heq, hvalue h']

/-- Digits in front of a minus. -/
theorem digits_minus_inj {p p' s s' : Bytes} (hp : ∀ c ∈ p, isDigit c = true)
    (hp' : ∀ c ∈ p', isDigit c = true) (h : p ++ 45 :: s = p' ++ 45 :: s') : p = p' ∧ s = s' := by
  have htake : ∀ {p s : Bytes}, (∀ c ∈ p, isDigit c = true) →
      (p ++ 45 :: s).takeWhile isDigit = p := by
    intro p s hp
    rw [List.takeWhile_append_of_pos hp]
    exact List.append_nil p
  have hprefix : p = p' := by rw [← htake (s := s) hp, h, htake hp']
  subst hprefix
  exact ⟨rfl, (List.cons.inj (List.append_cancel_left h)).2⟩

/-- The time can be told from the text, whatever is behind it. -/
theorem strftime_inj {tm tm' : Tm} (h : tm.Printable) (h' : tm'.Printable) {s s' : Bytes}
    (heq : strftime tm ++ s = strftime tm' ++ s') : tm = tm' := by
  have hshape : ∀ {tm : Tm}, tm.Printable → ∀ s, strftime tm ++ s
      = 46 :: ((natText tm.year.natAbs ++ (twoDigits tm.mon ++ twoDigits tm.mday))
        ++ 45 :: (twoDigits tm.hour ++ (twoDigits tm.min ++ (twoDigits tm.sec ++ 46 :: s)))) := by
    intro tm h s
    rw [strftime, if_neg (by have := h.year; omega)]
    simp
  have hdigits : ∀ {tm : Tm}, tm.Printable →
      ∀ c ∈ natText tm.year.natAbs ++ (twoDigits tm.mon ++ twoDigits tm.mday),
        isDigit c = true := by
    intro tm h c hc
    rw [List.mem_append, List.mem_append] at hc
    obtain hc | hc | hc := hc
    · exact isDigit_of_mem_natText hc
    · exact isDigit_twoDigits h.mon c hc
    · exact isDigit_twoDigits h.mday c hc
  rw [hshape h, hshape h'] at heq
  obtain ⟨hdate, htime⟩ := digits_minus_inj (hdigits h) (hdigits h') (List.cons.inj heq).2
  obtain ⟨hyear, hmonday⟩ := List.append_inj' hdate rfl
  obtain ⟨hmon, hmday⟩ := List.append_inj hmonday rfl
  obtain ⟨hhour, hrest⟩ := List.append_inj htime rfl
  obtain ⟨hmin, hrest⟩ := List.append_inj hrest rfl
  obtain ⟨hsec, -⟩ := List.append_inj hrest rfl
  have hyear' : tm.year.natAbs = tm'.year.natAbs := by
    rw [← digitsValue_natText tm.year.natAbs, hyear, digitsValue_natText]
  have h0 := h.year
  have h0' := h'.year
  obtain ⟨year, mon, mday, hour, min, sec⟩ := tm
  obtain ⟨year', mon', mday', hour', min', sec'⟩ := tm'
  simp only [Tm.mk.injEq]
  refine ⟨?_, twoDigits_inj h.mon h'.mon hmon, twoDigits_inj h.mday h'.mday hmday,
    twoDigits_inj h.hour h'.hour hhour, twoDigits_inj h.min h'.min hmin,
    twoDigits_inj h.sec h'.sec hsec⟩
  simp only at hyear' h0 h0'
  omega

/-- A time that a `LogFile` takes for one, and that `gmtime_r` can tell. -/
def Told (t : Int) : Prop := 0 < t ∧ (gmtime t).isSome = true

instance (t : Int) : Decidable (Told t) := inferInstanceAs (Decidable (_ ∧ _))

/-- Files of different seconds have different names, even on another host. -/
theorem getLogFileName_inj (config : LogConfig) {t t' : Int} (ht : Told t) (ht' : Told t')
    {hostname hostname' : Bytes}
    (h : config.getLogFileName t hostname = config.getLogFileName t' hostname') : t = t' := by
  obtain ⟨tm, htm⟩ := Option.isSome_iff_exists.mp ht.2
  obtain ⟨tm', htm'⟩ := Option.isSome_iff_exists.mp ht'.2
  unfold LogConfig.getLogFileName at h
  rw [htm, htm'] at h
  have heq := strftime_inj (printable_gmtime ht.1.le htm) (printable_gmtime ht'.1.le htm')
    (List.append_cancel_left h)
  exact gmtime_inj htm (heq ▸ htm')

namespace LogFile

variable {config : LogConfig} {s : LogFile} {f : File} {a : LogCall}

/-! ### Files -/

/-- The UTC day of a second. -/
def dayOf (t : Int) : Int := t / kRollPerSeconds

def File.bytes (f : File) : Nat := (f.records.map fun r => r.1.length).sum

/-- How many records were written on a later day than that on which the file was created. -/
def File.late (f : File) : Nat := f.records.countP fun r => dayOf f.created < dayOf r.2

/-- The records, file by file. -/
def lines (s : LogFile) : List Bytes := s.files.flatMap fun f => f.records.map Prod.fst

theorem dayOf_eq_of_startOf {t t' : Int} (ht : 0 ≤ t) (ht' : 0 ≤ t')
    (h : startOf t = startOf t') : dayOf t = dayOf t' := by
  unfold startOf kRollPerSeconds at h
  rw [Int.tdiv_eq_ediv_of_nonneg ht, Int.tdiv_eq_ediv_of_nonneg ht'] at h
  unfold dayOf kRollPerSeconds
  omega

theorem dayOf_mono {t t' : Int} (h : t ≤ t') : dayOf t ≤ dayOf t' := by
  unfold dayOf kRollPerSeconds
  omega

theorem bytes_append (f : File) (logline : Bytes) (now : Int) :
    (f.append logline now).bytes = f.bytes + logline.length := by
  simp [File.bytes, File.append]

theorem late_append_le (f : File) (logline : Bytes) (now : Int) :
    (f.append logline now).late ≤ f.late + 1 := by
  show (f.records ++ [(logline, now)]).countP _ ≤ _
  rw [List.countP_append]
  exact Nat.add_le_add_left List.countP_le_length _

/-- Nothing is late on the day of the creation. -/
theorem late_eq_zero (h : ∀ r ∈ f.records, dayOf r.2 ≤ dayOf f.created) : f.late = 0 := by
  rw [File.late, List.countP_eq_zero]
  intro r hr
  simpa using h r hr

/-! ### One call -/

/-- What is always so of a log with its file: the file was created at the last roll, nothing has
been written after the clock, and the files were created one after the other. -/
structure Kept (config : LogConfig) (s : LogFile) (f : File) : Prop where
  file : s.file = some f
  created : f.created = s.lastRoll
  start : s.startOfPeriod = startOf s.lastRoll
  pos : 0 < s.lastRoll
  lastRoll_le : s.lastRoll ≤ s.now
  bytes : f.writtenBytes = f.bytes
  written : ∀ r ∈ f.records, r.2 ≤ s.now
  closed : ∀ g ∈ s.closed, g.late ≤ kCheckTimeRoll + 2
  named : ∀ g ∈ s.files, Told g.created ∧
    ∃ hostname, g.name = config.getLogFileName g.created hostname
  sorted : s.files.Pairwise fun g g' => g.created < g'.created

/-- What is so between two calls: late records have been counted. -/
structure Inv (config : LogConfig) (s : LogFile) (f : File) : Prop extends Kept config s f where
  count : s.count ≤ kCheckTimeRoll + 1
  late : f.late ≤ s.count
  small : f.bytes ≤ config.rollSize ∨ f.created = s.now

theorem files_of_file (h : s.file = some f) : s.files = s.closed ++ [f] := by
  rw [files, h]
  rfl

/-- Rolling when the clock has advanced. -/
theorem Kept.roll (h : Kept config s f) (hlate : f.late ≤ kCheckTimeRoll + 2)
    (hcount : s.count ≤ kCheckTimeRoll + 1) (hlt : s.lastRoll < s.now) (htold : Told s.now)
    (hostname : Bytes) :
    (rollFile config s.now hostname s).lines = s.lines ∧
      (rollFile config s.now hostname s).now = s.now ∧
      ∃ f', Inv config (rollFile config s.now hostname s) f' := by
  set f' := File.init (config.getLogFileName s.now hostname) s.now with hf'
  have hroll : rollFile config s.now hostname s
      = { s with
          lastRoll := s.now
          lastFlush := s.now
          startOfPeriod := startOf s.now
          file := some f'
          closed := s.closed ++ [f] } := by
    rw [rollFile, if_pos hlt, h.file]
    rfl
  have hfiles : (rollFile config s.now hostname s).files = s.files ++ [f'] := by
    rw [hroll, files_of_file h.file, files]
    rfl
  have hlast : ∀ g ∈ s.files, g.created < s.now := by
    intro g hg
    have hsorted := h.sorted
    rw [files_of_file h.file] at hg hsorted
    obtain hg | hg := List.mem_append.mp hg
    · have := (List.pairwise_append.mp hsorted).2.2 g hg f List.mem_cons_self
      rw [h.created] at this
      omega
    · rw [List.mem_singleton.mp hg, h.created]
      exact hlt
  refine ⟨?_, ?_, f', ?_⟩
  · rw [lines, hfiles, List.flatMap_append]
    exact List.append_nil _
  · rw [hroll]
  · refine ⟨⟨?_, ?_, ?_, ?_, ?_, rfl, nofun, ?_, ?_, ?_⟩, ?_, ?_, Or.inl (Nat.zero_le _)⟩
    · rw [hroll]
    · rw [hroll]
      rfl
    · rw [hroll]
    · rw [hroll]
      exact h.pos.trans hlt
    · rw [hroll]
    · rw [hroll]
      intro g hg
      obtain hg | hg := List.mem_append.mp hg
      · exact h.closed g hg
      · exact List.mem_singleton.mp hg ▸ hlate
    · rw [hfiles]
      intro g hg
      obtain hg | hg := List.mem_append.mp hg
      · exact h.named g hg
      · rw [List.mem_singleton.mp hg]
        exact ⟨htold, hostname, rfl⟩
    · rw [hfiles, List.pairwise_append]
      refine ⟨h.sorted, List.pairwise_singleton _ _, fun g hg g' hg' => ?_⟩
      rw [List.mem_singleton.mp hg']
      exact hlast g hg
    · rw [hroll]
      exact hcount
    · exact Nat.zero_le _

/-- The clock does not go back. -/
def NonDecreasing (a : LogCall) (s : LogFile) : Prop :=
  s.now ≤ a.written ∧ a.written ≤ a.checked ∧ a.checked ≤ a.rolled

/-- What is so of the names is so of another last file with the same one. -/
theorem Kept.renewed (h : Kept config s f) (f' : File) (hname : f'.name = f.name)
    (hcreated : f'.created = f.created) :
    (∀ g ∈ s.closed ++ [f'], Told g.created ∧
        ∃ hostname, g.name = config.getLogFileName g.created hostname) ∧
      (s.closed ++ [f']).Pairwise fun g g' => g.created < g'.created := by
  have hnamed := h.named
  have hsorted := h.sorted
  rw [files_of_file h.file] at hnamed hsorted
  rw [List.pairwise_append] at hsorted ⊢
  refine ⟨fun g hg => ?_, hsorted.1, List.pairwise_singleton _ _, fun g hg g' hg' => ?_⟩
  · obtain hg | hg := List.mem_append.mp hg
    · exact hnamed g (List.mem_append_left _ hg)
    · rw [List.mem_singleton.mp hg, hname, hcreated]
      exact hnamed f (List.mem_append_right _ List.mem_cons_self)
  · rw [List.mem_singleton.mp hg', hcreated]
    exact hsorted.2.2 g hg f List.mem_cons_self

/-- The record is written to the file. -/
theorem Inv.appended (h : Inv config s f) (hclock : NonDecreasing a s) :
    Kept config { s with file := some (f.append a.logline a.written), now := a.rolled }
        (f.append a.logline a.written) ∧
      lines { s with file := some (f.append a.logline a.written), now := a.rolled }
        = s.lines ++ [a.logline] := by
  obtain ⟨hwritten, hchecked, hrolled⟩ := hclock
  have hfiles := files_of_file h.file
  have hle := h.lastRoll_le
  obtain ⟨hnamed, hsorted⟩ := h.renewed (f.append a.logline a.written) rfl rfl
  refine ⟨⟨rfl, h.created, h.start, h.pos, ?_, ?_, ?_, h.closed, hnamed, hsorted⟩, ?_⟩
  · show s.lastRoll ≤ a.rolled
    omega
  · rw [bytes_append, ← h.bytes]
    rfl
  · intro r hr
    show r.2 ≤ a.rolled
    obtain hr | hr := List.mem_append.mp hr
    · have := h.written r hr
      omega
    · rw [List.mem_singleton.mp hr]
      exact hchecked.trans hrolled
  · show (s.closed ++ [f.append a.logline a.written]).flatMap _ = s.files.flatMap _ ++ _
    rw [hfiles, List.flatMap_append, List.flatMap_append, List.append_assoc]
    simp [File.append]

/-- Flushing leaves what is in the file. -/
theorem Kept.flush (h : Kept config s f) (lastFlush : Int) :
    Kept config { s with count := 0, lastFlush := lastFlush, file := some f.flush } f.flush ∧
      lines { s with count := 0, lastFlush := lastFlush, file := some f.flush } = s.lines := by
  have hfiles := files_of_file h.file
  obtain ⟨hnamed, hsorted⟩ := h.renewed f.flush rfl rfl
  refine ⟨⟨rfl, h.created, h.start, h.pos, h.lastRoll_le, h.bytes, h.written, h.closed, hnamed,
    hsorted⟩, ?_⟩
  show (s.closed ++ [f.flush]).flatMap _ = s.files.flatMap _
  rw [hfiles, List.flatMap_append, List.flatMap_append]
  rfl

/-- The counter is not looked at. -/
theorem Kept.setCount (h : Kept config s f) (n : Nat) : Kept config { s with count := n } f :=
  ⟨h.file, h.created, h.start, h.pos, h.lastRoll_le, h.bytes, h.written, h.closed, h.named,
    h.sorted⟩

/-- Nothing in a file that was created in this second is late. -/
theorem Kept.late_of_second (h : Kept config s f) (hsecond : s.lastRoll = s.now) : f.late = 0 := by
  refine late_eq_zero fun r hr => ?_
  rw [h.created, hsecond]
  exact dayOf_mono (h.written r hr)

/-- Nothing in a file is late before its day is over. -/
theorem Kept.late_of_day (h : Kept config s f) {now : Int} (hle : ∀ r ∈ f.records, r.2 ≤ now)
    (hnow : 0 ≤ now) (hday : startOf now = s.startOfPeriod) : f.late = 0 := by
  have hpos := h.pos
  have hsame : dayOf now = dayOf f.created := by
    rw [h.created]
    exact dayOf_eq_of_startOf hnow hpos.le (hday.trans h.start)
  refine late_eq_zero fun r hr => ?_
  rw [← hsame]
  exact dayOf_mono (hle r hr)

/-- **One call** appends its record, and what is so between two calls is so again. -/
theorem append_inv (h : Inv config s f) (hclock : NonDecreasing a s) (htold : Told a.rolled) :
    ∃ s' f', append config a s = .ok s' ∧ Inv config s' f' ∧ s'.lines = s.lines ++ [a.logline] ∧
      s'.now = a.rolled := by
  obtain ⟨hkept, hlines⟩ := h.appended hclock
  obtain ⟨hwritten, hchecked, hrolled⟩ := hclock
  have hlate := late_append_le f a.logline a.written
  have hlate' := h.late
  have hcount := h.count
  have hle := h.lastRoll_le
  have hpos := h.pos
  set f₁ := f.append a.logline a.written with hf₁
  unfold append
  rw [h.file]
  simp only [← hf₁]
  by_cases hsize : config.rollSize < f₁.writtenBytes
  · -- the file is too large, and goes on only if it was created in this second
    rw [if_pos hsize]
    by_cases hlt : s.lastRoll < a.rolled
    · obtain ⟨hsame, hnow, f', hinv⟩ := hkept.roll (by omega) hcount hlt htold a.hostname
      exact ⟨_, f', rfl, hinv, hsame.trans hlines, hnow⟩
    · have hsecond : s.lastRoll = a.rolled := by omega
      have hzero : f₁.late = 0 := hkept.late_of_second hsecond
      refine ⟨_, f₁, rfl, ?_, ?_, ?_⟩
      · rw [rollFile, if_neg hlt]
        exact ⟨hkept, hcount, by rw [hzero]; exact Nat.zero_le _,
          Or.inr (hkept.created.trans hsecond)⟩
      · rw [rollFile, if_neg hlt]
        exact hlines
      · rw [rollFile, if_neg hlt]
  · rw [if_neg hsize]
    have hsmall : f₁.bytes ≤ config.rollSize := by
      rw [← hkept.bytes]
      omega
    by_cases hcheck : kCheckTimeRoll < s.count
    · rw [if_pos hcheck]
      by_cases hday : startOf a.checked ≠ s.startOfPeriod
      · -- a new day has begun since the file was created
        rw [if_pos hday]
        have hlt : s.lastRoll < a.rolled := by
          have hne : s.lastRoll ≠ a.checked := fun heq => hday (by rw [h.start, heq])
          omega
        obtain ⟨hsame, hnow, f', hinv⟩ :=
          (hkept.setCount 0).roll (by omega) (Nat.zero_le _) hlt htold a.hostname
        exact ⟨_, f', rfl, hinv, hsame.trans hlines, hnow⟩
      · -- nothing in the file is of a later day
        rw [if_neg hday]
        rw [not_not] at hday
        have hle' : ∀ r ∈ f₁.records, r.2 ≤ a.checked := by
          intro r hr
          obtain hr | hr := List.mem_append.mp hr
          · have := h.written r hr
            omega
          · rw [List.mem_singleton.mp hr]
            exact hchecked
        have hnone : f₁.late ≤ 0 := (hkept.late_of_day hle' (by omega) hday).le
        by_cases hflush : config.flushInterval < a.checked - s.lastFlush
        · rw [if_pos hflush]
          obtain ⟨hflushed, hsame⟩ := hkept.flush a.checked
          exact ⟨_, f₁.flush, rfl, ⟨hflushed, Nat.zero_le _, hnone, Or.inl hsmall⟩,
            hsame.trans hlines, rfl⟩
        · rw [if_neg hflush]
          exact ⟨_, f₁, rfl, ⟨hkept.setCount 0, Nat.zero_le _, hnone, Or.inl hsmall⟩, hlines, rfl⟩
    · -- the record is counted, for it may be late
      rw [if_neg hcheck]
      refine ⟨_, f₁, rfl, ⟨hkept.setCount (s.count + 1), ?_, ?_, Or.inl hsmall⟩, hlines, rfl⟩
      · show s.count + 1 ≤ _
        omega
      · show f₁.late ≤ s.count + 1
        omega

/-! ### Runs -/

/-- What the clock shows from the construction on. -/
def readings (now : Int) (calls : List LogCall) : List Int :=
  now :: calls.flatMap fun a => [a.written, a.checked, a.rolled]

theorem init_inv (config : LogConfig) {now : Int} (h : Told now) (hostname : Bytes) :
    ∃ f, Inv config (init config now hostname) f ∧ (init config now hostname).lines = [] ∧
      (init config now hostname).now = now := by
  have hinit : init config now hostname = ⟨0, startOf now, now, now,
      some (.init (config.getLogFileName now hostname) now), [], now⟩ := if_pos h.1
  rw [hinit]
  refine ⟨_, ⟨⟨rfl, rfl, rfl, h.1, le_rfl, rfl, nofun, nofun, ?_, List.pairwise_singleton _ _⟩,
    Nat.zero_le _, Nat.zero_le _, Or.inl (Nat.zero_le _)⟩, rfl, rfl⟩
  intro g hg
  rw [List.mem_singleton.mp hg]
  exact ⟨h, hostname, rfl⟩

/-- **A run** appends its records in order. -/
theorem run_inv {calls : List LogCall} : ∀ {s : LogFile} {f : File}, Inv config s f →
    (readings s.now calls).IsChain (· ≤ ·) → (∀ t ∈ readings s.now calls, Told t) →
    ∃ s' f', run (append config) calls s = .ok s' ∧ Inv config s' f' ∧
      s'.lines = s.lines ++ calls.map LogCall.logline := by
  induction calls with
  | nil => exact fun {s f} h _ _ => ⟨s, f, rfl, h, (List.append_nil _).symm⟩
  | cons a calls ih =>
      intro s f h hchain htold
      simp only [readings, List.flatMap_cons, List.cons_append, List.nil_append,
        List.isChain_cons_cons, List.forall_mem_cons] at hchain htold
      obtain ⟨hwritten, hchecked, hrolled, hrest⟩ := hchain
      obtain ⟨t, f', ht, hinv, hlines, hnow⟩ :=
        append_inv h ⟨hwritten, hchecked, hrolled⟩ htold.2.2.2.1
      obtain ⟨s', f'', hrun, hinv', hlines'⟩ := ih hinv (by rw [hnow]; exact hrest)
        (by rw [hnow]; exact List.forall_mem_cons.mpr htold.2.2.2)
      refine ⟨s', f'', (run_cons_of_ok ht calls).trans hrun, hinv', ?_⟩
      rw [hlines', hlines, List.append_assoc]
      rfl

/-- Files that are created one after the other have different names. -/
theorem Kept.nodup (h : Kept config s f) : (s.files.map File.name).Nodup := by
  rw [List.Nodup, List.pairwise_map]
  refine h.sorted.imp_of_mem fun {g g'} hg hg' hlt heq => ?_
  obtain ⟨htold, hostname, hname⟩ := h.named g hg
  obtain ⟨htold', hostname', hname'⟩ := h.named g' hg'
  rw [hname, hname'] at heq
  exact hlt.ne (getLogFileName_inj config htold htold' heq)

/-- What is to be so of the files when the calls have been made. -/
structure Rolls (config : LogConfig) (calls : List LogCall) (s : LogFile) : Prop where
  /-- The files have the records in order, each of them in one file. -/
  records : s.files.flatMap (fun f => f.records.map Prod.fst) = calls.map LogCall.logline
  names : (s.files.map File.name).Nodup
  small : ∃ f, s.file = some f ∧ (f.bytes ≤ config.rollSize ∨ f.created = s.now)
  late : ∀ f ∈ s.files, f.late ≤ kCheckTimeRoll + 2

/-- **Rolling.**  Whatever the records and however the clock goes on, every record is in one file,
in order, no two files have one name, the current file is not too large unless it was created in
this second, and no file goes on for long into a later day. -/
theorem rolls (config : LogConfig) (hostname : Bytes) (now : Int) (calls : List LogCall)
    (hclock : (readings now calls).IsChain (· ≤ ·)) (htold : ∀ t ∈ readings now calls, Told t) :
    ∃ s, run (append config) calls (init config now hostname) = .ok s ∧ Rolls config calls s := by
  obtain ⟨f, hinv, hlines, hnow⟩ := init_inv config (htold now List.mem_cons_self) hostname
  rw [← hnow] at hclock htold
  obtain ⟨s, f', hrun, hinv', hlines'⟩ := run_inv hinv hclock htold
  refine ⟨s, hrun, ?_, hinv'.nodup, ⟨f', hinv'.file, hinv'.small⟩, ?_⟩
  · rw [hlines] at hlines'
    exact hlines'
  · intro g hg
    rw [files_of_file hinv'.file] at hg
    obtain hg | hg := List.mem_append.mp hg
    · exact hinv'.closed g hg
    · rw [List.mem_singleton.mp hg]
      have hlate := hinv'.late
      have hcount := hinv'.count
      omega

/-- A log `a.h.1.log` in files of ten bytes, at noon and on the next day. -/
theorem rolls_days :
    let config : LogConfig := ⟨[97], 10, 3, 1, []⟩
    let calls : List LogCall := [⟨[120, 10], 1364990400, 1364990400, 1364990400, [104]⟩,
      ⟨[121, 10], 1365076800, 1365076800, 1365076801, [104]⟩]
    (readings 1364990400 calls).IsChain (· ≤ ·) ∧ (∀ t ∈ readings 1364990400 calls, Told t) ∧
      ∃ s, run (append config) calls (init config 1364990400 [104]) = .ok s ∧
        Rolls config calls s :=
  ⟨by decide, by decide +kernel, rolls _ _ _ _ (by decide) (by decide +kernel)⟩

/-- With the clock at 0 there is no file, and where `gmtime_r` fails the names show no time: not
even a clock that only goes forward is enough. -/
theorem not_rolls :
    ¬ (∀ (config : LogConfig) (hostname : Bytes) (now : Int) (calls : List LogCall),
        (readings now calls).IsChain (· ≤ ·) →
          ∃ s, run (append config) calls (init config now hostname) = .ok s ∧
            Rolls config calls s) ∧
      ¬ (∀ (config : LogConfig) (hostname : Bytes) (now : Int) (calls : List LogCall),
        (readings now calls).IsChain (· ≤ ·) → (∀ t ∈ readings now calls, 0 < t) →
          ∃ s, run (append config) calls (init config now hostname) = .ok s ∧
            Rolls config calls s) := by
  constructor
  · intro h
    obtain ⟨s, hrun, -⟩ := h ⟨[], 0, 3, 1, []⟩ [] 0 [⟨[10], 0, 0, 0, []⟩] (by decide)
    cases hrun
  · intro h
    -- one file is too large in the second in which it was created, and goes on in the next one
    obtain ⟨s, hrun, hrolls⟩ := h ⟨[], 0, 3, 1, []⟩ [] 67768036191676800
      [⟨[10], 67768036191676800, 67768036191676800, 67768036191676801, []⟩] (by decide) (by decide)
    have hnames : (run (append ⟨[], 0, 3, 1, []⟩)
        [⟨[10], 67768036191676800, 67768036191676800, 67768036191676801, []⟩]
        (init ⟨[], 0, 3, 1, []⟩ 67768036191676800 [])).map (fun s => s.files.map File.name)
          = .ok [[46, 49, 46, 108, 111, 103], [46, 49, 46, 108, 111, 103]] := by
      decide +kernel
    rw [hrun] at hnames
    have heq : s.files.map File.name = _ := Except.ok.inj hnames
    have hnodup := hrolls.names
    rw [heq] at hnodup
    exact absurd hnodup (by decide)

end LogFile

end Base
