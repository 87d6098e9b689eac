import Mathlib.Data.Char
import Mathlib.Data.List.Lex
import Mathlib.Data.List.Sort
import Quest.Library.FramedStream
import Quest.Library.Machine

/-! The USB watcher `headset-watch.py`: an incremental parser of the listings that
`adb track-devices -l` writes feeds a small state machine that attaches headsets and stops
the displays. Trackers, the sizes of the reads and the monotonic clock, in nanoseconds, are
carried by the actions; exit codes are only logged and left out. -/
namespace Quest.HeadsetWatch

def unplugGrace : Nat := 3000000000

abbrev Text := List Char

/-- Inside a multi-byte character: how many bytes are missing, the range of the next one, and
the value of those before it. -/
structure Partial where
  missing : Nat
  low : UInt8
  high : UInt8
  value : Nat
  deriving DecidableEq, Repr

def replacement : Char := Char.ofNat 65533

/-- The first byte of a character of two bytes or more. -/
def lead (b : UInt8) : Option Partial :=
  if 0xC2 ≤ b ∧ b ≤ 0xDF then some ⟨1, 0x80, 0xBF, b.toNat - 0xC0⟩
  else if b = 0xE0 then some ⟨2, 0xA0, 0xBF, 0⟩
  else if b = 0xED then some ⟨2, 0x80, 0x9F, 13⟩
  else if 0xE1 ≤ b ∧ b ≤ 0xEF then some ⟨2, 0x80, 0xBF, b.toNat - 0xE0⟩
  else if b = 0xF0 then some ⟨3, 0x90, 0xBF, 0⟩
  else if 0xF1 ≤ b ∧ b ≤ 0xF3 then some ⟨3, 0x80, 0xBF, b.toNat - 0xF0⟩
  else if b = 0xF4 then some ⟨3, 0x80, 0x8F, 4⟩
  else none

/-- A byte between two characters. -/
def begin (b : UInt8) : Text × Option Partial :=
  if b < 0x80 then ([Char.ofNat b.toNat], none)
  else
    match lead b with
    | some open_ => ([], some open_)
    | none => ([replacement], none)

def decodeFrom : Option Partial → List UInt8 → Text
  | none, [] => []
  | some _, [] => [replacement]
  | none, b :: rest => (begin b).1 ++ decodeFrom (begin b).2 rest
  | some p, b :: rest =>
    if p.low ≤ b ∧ b ≤ p.high then
      let value := p.value * 64 + (b.toNat - 0x80)
      if p.missing = 1 then Char.ofNat value :: decodeFrom none rest
      else decodeFrom (some ⟨p.missing - 1, 0x80, 0xBF, value⟩) rest
    else replacement :: ((begin b).1 ++ decodeFrom (begin b).2 rest)

/-- `bytes.decode(errors="replace")`. -/
def decode (bytes : List UInt8) : Text := decodeFrom none bytes

/-- Where `str.splitlines` breaks lines. It takes `\r\n` for one break; here an empty line
lies between, which has no fields. -/
def breaksLine (c : Char) : Bool :=
  c.toNat ∈ [0x0A, 0x0B, 0x0C, 0x0D, 0x1C, 0x1D, 0x1E, 0x85, 0x2028, 0x2029]

def isSpace (c : Char) : Bool :=
  c.toNat ∈ [0x09, 0x0A, 0x0B, 0x0C, 0x0D, 0x1C, 0x1D, 0x1E, 0x1F, 0x20, 0x85, 0xA0, 0x1680, 0x2028,
    0x2029, 0x202F, 0x205F, 0x3000] ∨ 0x2000 ≤ c.toNat ∧ c.toNat ≤ 0x200A

def split (line : Text) : List Text := (line.splitOnP isSpace).filter (· ≠ [])

def questSerial (line : Text) : Option Text :=
  match split line with
  | serial :: state :: properties =>
    if state = "device".toList ∧ ∃ f ∈ properties, "model:Quest".toList <+: f then some serial
    else none
  | _ => none

def questSerials (listing : List UInt8) : List Text :=
  ((decode listing).splitOnP breaksLine).filterMap questSerial

/-- `sorted(present)[0]`, for a set that is not empty. -/
def leastSerial (present : List Text) : Option Text := (present.insertionSort (· ≤ ·)).head?

def hexDigit (b : UInt8) : Option Nat :=
  if 0x30 ≤ b ∧ b ≤ 0x39 then some (b.toNat - 0x30)
  else if 0x61 ≤ b ∧ b ≤ 0x66 then some (b.toNat - 0x57)
  else if 0x41 ≤ b ∧ b ≤ 0x46 then some (b.toNat - 0x37)
  else none

/-- `int(_, 16)` of hexadecimal digits. Signs, spaces and underscores, which `int` takes as
well, never begin a listing. -/
def hexSize (digits : List UInt8) : Option Nat :=
  digits.foldlM (fun size b => (hexDigit b).map (size * 16 + ·)) 0

/-- An update of the tracker: four digits that give the length of the listing. -/
structure Listing where
  size : List UInt8
  text : List UInt8
  digits : size.length = 4
  exact_ : hexSize size = some text.length

def Listing.frame (l : Listing) : List UInt8 := l.size ++ l.text

structure Config where
  port : Nat
  launchAppOnConnect : Bool
  deriving DecidableEq, Repr

/-- Where the watcher stands: at the head of its inner loop, among the listings of its
buffer, before the test of the grace, between two trackers, or dead of a `ValueError`. -/
inductive Phase where
  | waiting
  | parsing
  | testing
  | restarting
  | crashed
  deriving DecidableEq, Repr

/-- The variables of `main` and the last reading of the clock. The tracker has written `sent`,
of which `read` bytes have been read and `handled` has been processed; the watcher does not
see these three. -/
structure State where
  attached : Option Text
  missingSince : Option Nat
  displaysRunning : Bool
  buffer : List UInt8
  phase : Phase
  clock : Nat
  sent : List Listing
  read : Nat
  handled : List (List UInt8)

/-- The first tracker is running; the service may have been active before. -/
def State.initial (start : Nat) (running : Bool) : State :=
  ⟨none, some start, running, [], .waiting, start, [], 0, []⟩

inductive Action where
  | send (l : Listing)
  | read (limit : Nat)
  | quiet
  | parse (now : Nat)
  | test (now : Nat)
  | exit
  | restart

inductive Event where
  | processed (listing : List UInt8) (now : Nat)
  | attached (serial : Text)
  | reverse (serial : Text) (port : Nat)
  | started
  | launched (serial : Text)
  | detached (now : Nat)
  | ended
  | tracking
  deriving DecidableEq, Repr

variable (config : Config)

def attach (serial : Text) : List Event :=
  [.attached serial, .reverse serial config.port, .started] ++
    if config.launchAppOnConnect then [.launched serial] else []

def State.hear (s : State) (listing : List UInt8) (now : Nat) : State :=
  { s with handled := s.handled ++ [listing], clock := now }

def process (s : State) (listing : List UInt8) (now : Nat) : State × List Event :=
  let present := questSerials listing
  let heard := s.hear listing now
  match s.attached.filter (· ∈ present), leastSerial present with
  | some serial, _ =>
    if s.missingSince = none then (heard, [.processed listing now])
    else ({ heard with missingSince := none },
      [.processed listing now, .reverse serial config.port])
  | none, some serial =>
    ({ heard with attached := some serial, missingSince := none, displaysRunning := true },
      .processed listing now :: attach config serial)
  | none, none =>
    ({ heard with missingSince := some (s.missingSince.getD now) }, [.processed listing now])

/-- One turn of the loop over the buffer. -/
def parseStep (s : State) (now : Nat) : State × List Event :=
  if s.buffer.length < 4 then ({ s with phase := .testing }, [])
  else
    match hexSize (s.buffer.take 4) with
    | none => ({ s with phase := .crashed }, [])
    | some size =>
      if s.buffer.length < 4 + size then ({ s with phase := .testing }, [])
      else process config { s with buffer := s.buffer.drop (4 + size) }
        ((s.buffer.drop 4).take size) now

def testStep (s : State) (now : Nat) : State × List Event :=
  let waiting := { s with phase := .waiting, clock := now }
  match s.missingSince with
  | none => (waiting, [])
  | some since =>
    if (s.attached.isSome = true ∨ s.displaysRunning = true) ∧ unplugGrace ≤ now - since then
      ({ waiting with attached := none, displaysRunning := false }, [.detached now])
    else (waiting, [])

def State.stream (s : State) : List UInt8 := FramedStream.stream Listing.frame s.sent

def step : Machine.Step State Action Event := fun s a =>
  match a, s.phase with
  | .send l, _ => some ({ s with sent := s.sent ++ [l] }, [])
  | .read limit, .waiting =>
    let chunk := (s.stream.drop s.read).take limit
    if chunk = [] then none
    else some ({ s with
      buffer := s.buffer ++ chunk, read := s.read + chunk.length, phase := .parsing }, [])
  | .quiet, .waiting => some ({ s with phase := .testing }, [])
  | .parse now, .parsing => if s.clock ≤ now then some (parseStep config s now) else none
  | .test now, .testing => if s.clock ≤ now then some (testStep s now) else none
  | .exit, .waiting => some ({ s with phase := .restarting }, [.ended])
  | .restart, .restarting =>
    some ({ s with phase := .waiting, buffer := [], sent := [], read := 0, handled := [] },
      [.tracking])
  | _, _ => none

def State.front (s : State) : Option (List UInt8) :=
  if s.buffer.length < 4 then none
  else (hexSize (s.buffer.take 4)).bind fun size =>
    if s.buffer.length < 4 + size then none else some ((s.buffer.drop 4).take size)

theorem leastSerial_none {present : List Text} : leastSerial present = none ↔ present = [] := by
  rw [leastSerial, List.head?_eq_none_iff, ← List.length_eq_zero_iff, List.length_insertionSort,
    List.length_eq_zero_iff]

variable {config}

inductive Processed (config : Config) (s : State) (listing : List UInt8) (now : Nat) :
    State → List Event → Prop where
  | stayed : s.attached = some serial → serial ∈ questSerials listing → s.missingSince = none →
      Processed config s listing now (s.hear listing now) [.processed listing now]
  | returned : s.attached = some serial → serial ∈ questSerials listing → s.missingSince ≠ none →
      Processed config s listing now { s.hear listing now with missingSince := none }
        [.processed listing now, .reverse serial config.port]
  | attached : (∀ owner, s.attached = some owner → owner ∉ questSerials listing) →
      leastSerial (questSerials listing) = some serial →
      Processed config s listing now
        { s.hear listing now with
          attached := some serial, missingSince := none, displaysRunning := true }
        (.processed listing now :: attach config serial)
  | missed : questSerials listing = [] →
      Processed config s listing now
        { s.hear listing now with missingSince := some (s.missingSince.getD now) }
        [.processed listing now]

theorem process_processed (config : Config) (s : State) (listing : List UInt8) (now : Nat) :
    Processed config s listing now (process config s listing now).1
      (process config s listing now).2 := by
  simp only [process]
  split
  next serial least present =>
    obtain ⟨attached, listed⟩ := Option.filter_eq_some_iff.mp present
    have listed := of_decide_eq_true listed
    split
    · exact .stayed attached listed ‹_›
    · exact .returned attached listed ‹_›
  next serial absent least =>
    refine .attached (fun owner owned listed => ?_) least
    simp [owned, listed] at absent
  next absent least => exact .missed (leastSerial_none.mp least)

inductive Moved (config : Config) (s : State) : Action → State → List Event → Prop where
  | sent : Moved config s (.send l) { s with sent := s.sent ++ [l] } []
  | read : s.phase = .waiting →
      Moved config s (.read limit) { s with buffer := buffer, read := count, phase := .parsing } []
  | quiet : s.phase = .waiting → Moved config s .quiet { s with phase := .testing } []
  | parsed : s.phase = .parsing → s.front = none →
      Moved config s (.parse now) { s with phase := .testing } []
  | crashed : s.phase = .parsing → s.front = none →
      Moved config s (.parse now) { s with phase := .crashed } []
  | processed : s.phase = .parsing → s.clock ≤ now → s.front = some listing →
      Processed config { s with buffer := rest } listing now next events →
      Moved config s (.parse now) next events
  | tested : s.phase = .testing → s.clock ≤ now →
      Moved config s (.test now) { s with phase := .waiting, clock := now } []
  | detached : s.phase = .testing → s.clock ≤ now → s.missingSince = some since →
      s.attached.isSome = true ∨ s.displaysRunning = true → unplugGrace ≤ now - since →
      Moved config s (.test now)
        { s with phase := .waiting, clock := now, attached := none, displaysRunning := false }
        [.detached now]
  | exited : s.phase = .waiting → Moved config s .exit { s with phase := .restarting } [.ended]
  | restarted : s.phase = .restarting → Moved config s .restart
      { s with phase := .waiting, buffer := [], sent := [], read := 0, handled := [] } [.tracking]

theorem Moved.of_result {s next : State} {a : Action} {events : List Event}
    {t : State × List Event} (moved : Moved config s a t.1 t.2) (result : t = (next, events)) :
    Moved config s a next events := by
  cases result; exact moved

theorem parse_moved {s : State} {now : Nat} (phase : s.phase = .parsing) (later : s.clock ≤ now) :
    Moved config s (.parse now) (parseStep config s now).1 (parseStep config s now).2 := by
  simp only [parseStep]
  split
  · rename_i short
    exact .parsed phase (by simp [State.front, short])
  rename_i long
  split
  · rename_i digits
    exact .crashed phase (by simp [State.front, long, digits])
  rename_i size digits
  split
  · rename_i part
    exact .parsed phase (by simp [State.front, long, digits, part])
  · rename_i whole
    have front : s.front = some ((s.buffer.drop 4).take size) := by
      simp [State.front, long, digits, whole]
    exact .processed phase later front (process_processed _ _ _ _)

theorem test_moved {s : State} {now : Nat} (phase : s.phase = .testing) (later : s.clock ≤ now) :
    Moved config s (.test now) (testStep s now).1 (testStep s now).2 := by
  simp only [testStep]
  split
  · exact .tested phase later
  next since missing =>
    split
    · rename_i due
      exact .detached phase later missing due.1 due.2
    · exact .tested phase later

theorem step_moved {s next : State} {a : Action} {events : List Event}
    (taken : step config s a = some (next, events)) : Moved config s a next events := by
  simp only [step] at taken
  split at taken
  · cases taken; exact .sent
  next phase =>
    split at taken <;> cases taken
    exact .read phase
  next phase => cases taken; exact .quiet phase
  next phase =>
    simp only [Option.ite_none_right_eq_some, Option.some.injEq] at taken
    exact .of_result (parse_moved phase taken.1) taken.2
  next phase =>
    simp only [Option.ite_none_right_eq_some, Option.some.injEq] at taken
    exact .of_result (test_moved phase taken.1) taken.2
  next phase => cases taken; exact .exited phase
  next phase => cases taken; exact .restarted phase
  next => contradiction

end Quest.HeadsetWatch
