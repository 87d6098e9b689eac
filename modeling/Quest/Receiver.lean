import Quest.Packet
import Quest.Library.ChunkedStream

/-! The receiver of `receiver.py`: exact reads from the socket, the header check and the
loop over frames. `rounds` is how often the loop's deadline test still succeeds; what is
done with a complete frame is a parameter, so that the loop is stated once. -/
namespace Quest.Receiver

open ChunkedStream

def streamIds : List Nat := [0, 1]

structure Fields where
  magic : List UInt8
  version : Nat
  kind : Nat
  stream : Nat
  codec : Nat
  width : Nat
  height : Nat
  fpsNum : Nat
  fpsDen : Nat
  pts : Nat
  size : Nat
  flags : Nat
  deriving DecidableEq, Repr

def field (data : List UInt8) (offset width : Nat) : Nat :=
  BigEndian.decode ((data.drop offset).take width)

/-- The struct format `!4sBBBBHHHHQII`. -/
def unpack (data : List UInt8) : Fields where
  magic := data.take 4
  version := field data 4 1
  kind := field data 5 1
  stream := field data 6 1
  codec := field data 7 1
  width := field data 8 2
  height := field data 10 2
  fpsNum := field data 12 2
  fpsDen := field data 14 2
  pts := field data 16 8
  size := field data 24 4
  flags := field data 28 4

structure FrameHeader where
  stream : Nat
  pts : Nat
  size : Nat
  key : Bool
  deriving DecidableEq, Repr

structure Frame where
  header : FrameHeader
  payload : List UInt8
  deriving DecidableEq, Repr

def parseHeader (data : List UInt8) : Except String FrameHeader :=
  let f := unpack data
  if (f.magic, f.version, f.kind, f.codec) ≠ ([0x51, 0x53, 0x54, 0x56], 1, 1, 1) then
    .error "Unsupported protocol header"
  else if f.stream ∉ streamIds ∨ (f.width, f.height, f.fpsNum, f.fpsDen) ≠ (2560, 1440, 60, 1) then
    .error "Invalid stream configuration"
  else if f.size < 1 ∨ MaxPayload < f.size ∨ f.flags - f.flags % 2 ≠ 0 then
    .error "Invalid payload length or flags"
  else .ok ⟨f.stream, f.pts, f.size, f.flags % 2 = 1⟩

/-- The end of the stream inside an exact read that already holds `data`. -/
def eofMessage (data : List UInt8) : String :=
  if data ≠ [] then "TCP connection ended inside a frame" else "TCP connection ended"

/-- `read_exact` after `data` has been collected. -/
def readExactFrom (chunks : List (List UInt8)) (size : Nat) (data : List UInt8) :
    Except String (List UInt8 × List (List UInt8)) :=
  if data.length < size then
    if (recv chunks (size - data.length)).1 = [] then
      .error (eofMessage data)
    else
      readExactFrom (recv chunks (size - data.length)).2 size
        (data ++ (recv chunks (size - data.length)).1)
  else .ok (data, chunks)
termination_by size - data.length
decreasing_by
  rename_i short more
  have := List.length_pos_iff.mpr more
  simp only [List.length_append]
  omega

def readExact (chunks : List (List UInt8)) (size : Nat) :
    Except String (List UInt8 × List (List UInt8)) := readExactFrom chunks size []

inductive Stop where
  | eof (message : String)
  | valueError (message : String)
  | deadline
  deriving DecidableEq, Repr

/-- The frame loop of `main` over an arbitrary treatment of complete frames. -/
def receiveLoop (handle : σ → Frame → Except String σ) :
    Nat → List (List UInt8) → σ → σ × Stop
  | 0, _, s => (s, .deadline)
  | rounds + 1, chunks, s =>
    match readExact chunks headerSize with
    | .error message => (s, .eof message)
    | .ok (data, chunks) =>
      match parseHeader data with
      | .error message => (s, .valueError message)
      | .ok header =>
        match readExact chunks header.size with
        | .error message => (s, .eof message)
        | .ok (payload, chunks) =>
          match handle s ⟨header, payload⟩ with
          | .error message => (s, .valueError message)
          | .ok next => receiveLoop handle rounds chunks next

/-- Collecting the frames, without the per-stream checks of `main`. -/
def collect (frames : List Frame) (frame : Frame) : Except String (List Frame) :=
  .ok (frames ++ [frame])

/-- The regex match iterator of `annexb_types`. A code in the last three bytes ends the
payload, so it announces no header; the optional zero is taken when it is there. -/
def annexbTypes : List UInt8 → List Nat
  | a :: b :: c :: d :: rest =>
    if a = 0 ∧ b = 0 ∧ c = 0 ∧ d = 1 then
      match rest with
      | [] => []
      | byte :: _ => (byte &&& 31).toNat :: annexbTypes rest
    else if a = 0 ∧ b = 0 ∧ c = 1 then (d &&& 31).toNat :: annexbTypes (d :: rest)
    else annexbTypes (b :: c :: d :: rest)
  | _ => []

structure Stats where
  frames : Nat
  bytes : Nat
  firstPtsUs : Nat
  lastPtsUs : Int
  keyframes : Nat
  deriving DecidableEq, Repr

/-- The dictionaries of `main`, and the frames recorded so far in order of arrival. -/
structure Session where
  streams : Nat → Option Stats
  files : Nat → List UInt8
  recorded : List Frame

def Session.empty : Session := ⟨fun _ => none, fun _ => [], []⟩

/-- A stream enters the dictionaries with its first frame, which must start a decoder. -/
def openStream (s : Session) (frame : Frame) : Except String Session :=
  match s.streams frame.header.stream with
  | some _ => .ok s
  | none =>
    if frame.header.key = false ∨ ¬[5, 7, 8] ⊆ annexbTypes frame.payload then
      .error s!"Stream {frame.header.stream} did not begin with IDR + SPS + PPS"
    else
      .ok { s with
        streams := Function.update s.streams frame.header.stream
          (some ⟨0, 0, frame.header.pts, -1, 0⟩)
        files := Function.update s.files frame.header.stream [] }

def Stats.add (stats : Stats) (frame : Frame) : Stats where
  frames := stats.frames + 1
  bytes := stats.bytes + frame.header.size
  firstPtsUs := stats.firstPtsUs
  lastPtsUs := frame.header.pts
  keyframes := stats.keyframes + frame.header.key.toNat

def record (s : Session) (frame : Frame) : Except String Session := do
  let s ← openStream s frame
  match s.streams frame.header.stream with
  | none => .error "KeyError"
  | some stats =>
    if frame.header.pts ≤ stats.lastPtsUs then
      .error s!"Stream {frame.header.stream} timestamps are not increasing"
    else
      .ok {
        streams := Function.update s.streams frame.header.stream (some (stats.add frame))
        files := Function.update s.files frame.header.stream
          (s.files frame.header.stream ++ frame.payload)
        recorded := s.recorded ++ [frame] }

end Quest.Receiver
