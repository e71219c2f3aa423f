/-
`LogFile`: a log that goes on in a new file when one is too large, and on a new day.

Each file remembers when it was opened and each record when it was written; the code does not
look at either.  `fwrite` writes all it is given.  The clock of a call is what `time` returns in
it: when the record is written, at the check for a new day and in `getLogFileName`; the last one
is also the clock at the end of the call.
-/
import Muduo.Lib.Numeral
import Muduo.Lib.Runs

namespace Base

open Lib

/-! ### Names -/

/-- What a name shows of `struct tm`. -/
structure Tm where
  year : Int
  mon : Nat
  mday : Nat
  hour : Nat
  min : Nat
  sec : Nat
deriving DecidableEq

/-- `kRollPerSeconds_` -/
def kRollPerSeconds : Int := 60 * 60 * 24

/-- The date of a day, counted from 1970-01-01.  Years begin in March here, and come in groups of
400, 100 and 4, the last of which may be a day longer than the others. -/
def civil (day : Int) : Int × Nat × Nat :=
  let z := day + 719468
  let dayOf400 := (z % 146097).toNat
  let c := min (dayOf400 / 36524) 3
  let dayOf100 := dayOf400 - 36524 * c
  let q := dayOf100 / 1461
  let dayOf4 := dayOf100 % 1461
  let y := min (dayOf4 / 365) 3
  let dayOfYear := dayOf4 - 365 * y
  let m := (5 * dayOfYear + 2) / 153
  (400 * (z / 146097) + (100 * c + 4 * q + y : Nat) + if m < 10 then 0 else 1,
    if m < 10 then m + 3 else m - 9, dayOfYear - (153 * m + 2) / 5 + 1)

/-- `gmtime_r`, which fails if the year is no `int`. -/
def gmtime (time : Int) : Option Tm :=
  let date := civil (time / kRollPerSeconds)
  let second := (time % kRollPerSeconds).toNat
  if -2 ^ 31 ≤ date.1 - 1900 ∧ date.1 - 1900 < 2 ^ 31 then
    some ⟨date.1, date.2.1, date.2.2, second / 3600, second / 60 % 60, second % 60⟩
  else none

/-- `%m`, `%d`, `%H`, `%M` and `%S` -/
def twoDigits (n : Nat) : Bytes := [digitChar (n / 10), digitChar (n % 10)]

/-- `.%Y%m%d-%H%M%S.` -/
def strftime (tm : Tm) : Bytes :=
  46 :: ((if tm.year < 0 then [45] else []) ++ natText tm.year.natAbs ++ twoDigits tm.mon
    ++ twoDigits tm.mday
    ++ 45 :: (twoDigits tm.hour ++ twoDigits tm.min ++ twoDigits tm.sec ++ [46]))

/-- What a `LogFile` is constructed with, and what the process contributes. -/
structure LogConfig where
  basename : Bytes
  rollSize : Nat
  flushInterval : Int
  pid : Nat
  /-- What is in `timebuf` when `gmtime_r` has failed and `tm` has no value. -/
  timebuf : Bytes

/-- `getLogFileName`, at a time and on a host. -/
def LogConfig.getLogFileName (config : LogConfig) (now : Int) (hostname : Bytes) : Bytes :=
  config.basename ++ (((gmtime now).map strftime).getD config.timebuf
    ++ (hostname ++ 46 :: (natText config.pid ++ [46, 108, 111, 103])))

/-! ### Files -/

/-- `LogFile::File`, with the records in it and when they were written. -/
structure LogFile.File where
  name : Bytes
  created : Int
  records : List (Bytes × Int)
  writtenBytes : Nat
  /-- How many of the records have been flushed. -/
  flushed : Nat

namespace LogFile.File

def init (name : Bytes) (now : Int) : File := ⟨name, now, [], 0, 0⟩

def append (f : File) (logline : Bytes) (now : Int) : File :=
  { f with
    records := f.records ++ [(logline, now)]
    writtenBytes := f.writtenBytes + logline.length }

def flush (f : File) : File := { f with flushed := f.records.length }

end LogFile.File

/-! ### The log -/

/-- `file_` has no file, and is used. -/
inductive LogFault where
  | noFile
deriving DecidableEq

/-- `LogFile`, with the files it has closed and the clock. -/
structure LogFile where
  count : Nat
  startOfPeriod : Int
  lastRoll : Int
  lastFlush : Int
  file : Option LogFile.File
  closed : List LogFile.File
  now : Int

/-- A call of `append`. -/
structure LogCall where
  logline : Bytes
  written : Int
  checked : Int
  rolled : Int
  hostname : Bytes

namespace LogFile

/-- `kCheckTimeRoll_` -/
def kCheckTimeRoll : Nat := 1024

variable (config : LogConfig)

/-- The start of a day. -/
def startOf (now : Int) : Int := now.tdiv kRollPerSeconds * kRollPerSeconds

def rollFile (now : Int) (hostname : Bytes) (s : LogFile) : LogFile :=
  let filename := config.getLogFileName now hostname
  let start := startOf now
  if s.lastRoll < now then
    { s with
      lastRoll := now
      lastFlush := now
      startOfPeriod := start
      file := some (.init filename now)
      closed := s.closed ++ s.file.toList }
  else s

/-- The constructor. -/
def init (now : Int) (hostname : Bytes) : LogFile :=
  rollFile config now hostname ⟨0, 0, 0, 0, none, [], now⟩

/-- `append_unlocked` -/
def append (a : LogCall) (s : LogFile) : Except LogFault LogFile :=
  match s.file with
  | none => .error .noFile
  | some f =>
      let f := f.append a.logline a.written
      let s := { s with file := some f, now := a.rolled }
      if config.rollSize < f.writtenBytes then .ok (rollFile config a.rolled a.hostname s)
      else if kCheckTimeRoll < s.count then
        let s := { s with count := 0 }
        let thisPeriod := startOf a.checked
        if thisPeriod ≠ s.startOfPeriod then .ok (rollFile config a.rolled a.hostname s)
        else if config.flushInterval < a.checked - s.lastFlush then
          .ok { s with lastFlush := a.checked, file := some f.flush }
        else .ok s
      else .ok { s with count := s.count + 1 }

/-- The files in the order of their creation. -/
def files (s : LogFile) : List File := s.closed ++ s.file.toList

end LogFile

end Base
