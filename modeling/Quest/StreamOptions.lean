import Quest.EncoderSelection
import Quest.Library.CommandLine

/-! The command line of `stream_main`: its options, what it reads of them and the checks before
anything is opened. How `QString` reads a whole number is a parameter. -/
namespace Quest

open CommandLine

def captureMemories : List String := ["auto", "cpu", "dmabuf"]

/-- The options of `stream_main` with whether they take a value. Its only short options ask for
help, after which the process ends as it does after an unknown one. -/
def streamOptions : Options := fun name =>
  if name ∈ ["monitor", "seconds", "output", "bitrate", "listen", "encoder", "intel-render-node",
      "capture-memory", "gop", "vbv-ms"] then some true
  else if name ∈ ["no-record", "laptop-off-when-connected", "allow-nvenc-fallback"] then some false
  else none

structure StreamSettings where
  encoder : EncoderOptions
  memory : String
  seconds : Int
  rate : Int
  port : Int
  selection : String
  output : String
  record : Bool
  laptopOff : Bool
  deriving DecidableEq, Repr

/-- The checks of `main` up to its output directory. GOP and buffer that are no numbers read as
0, which the encoder refuses. -/
def readSettings (toInt : String → Option Int) (items : List Item) :
    Except String StreamSettings :=
  let memory := value "capture-memory" "auto" items
  let selection := value "monitor" "all" items
  if memory ∉ captureMemories then .error "Invalid capture-memory" else
    match toInt (value "seconds" "0" items), toInt (value "bitrate" "24" items),
        toInt (value "listen" "0" items) with
    | some seconds, some rate, some port =>
      if 0 ≤ seconds ∧ 1 ≤ rate ∧ rate ≤ 150 ∧ 0 ≤ port ∧ port ≤ 65535 ∧
          (selection = "all" ∨ (toInt selection).any fun id : Int => 0 ≤ id ∧ id < MonitorCount) then
        .ok {
          encoder := {
            backend := value "encoder" "auto" items
            renderNode := value "intel-render-node" "" items
            allowNvencFallback := isSet "allow-nvenc-fallback" items
            gop := (toInt (value "gop" "60" items)).getD 0
            vbvMs := (toInt (value "vbv-ms" "50" items)).getD 0 }
          memory, seconds, rate, port, selection
          output := value "output" "artifacts/streams" items
          record := !isSet "no-record" items
          laptopOff := isSet "laptop-off-when-connected" items }
      else .error "Invalid duration, bitrate or monitor selection"
    | _, _, _ => .error "Invalid duration, bitrate or monitor selection"

end Quest
