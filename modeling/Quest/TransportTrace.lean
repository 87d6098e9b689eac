import Quest.TransportInvariant

/-! What a transport trace says about one publisher and about one connection. -/
namespace Quest.Transport

def workerEvents (trace : List (Event ι)) : List WorkerEvent :=
  trace.filterMap fun
    | .worker event => some event
    | .published .. => none

def callsOf [DecidableEq ι] (t : ι) (trace : List (Event ι)) : List (EncodedPacket × Result) :=
  trace.filterMap fun
    | .published u p result => if u = t then some (p, result) else none
    | .worker _ => none

def Result.thrown : Result → Bool
  | .threw _ => true
  | _ => false

/-- The packets a publisher handed to `publish` in calls that did not throw. -/
def handed [DecidableEq ι] (t : ι) (trace : List (Event ι)) : List (EncodedPacket × Result) :=
  (callsOf t trace).filter fun call => !call.2.thrown

/-- The packets put in the queue while connection `k` was current, in queue order. -/
def queuedOn (k : Nat) (trace : List (Event ι)) : List EncodedPacket :=
  trace.filterMap fun
    | .published _ p result => if result = .queued k then some p else none
    | .worker _ => none

def WorkerEvent.sentOn (k : Nat) : WorkerEvent → List UInt8
  | .sent connection bytes => if connection = k then bytes else []
  | _ => []

def sentOn (k : Nat) (trace : List (Event ι)) : List UInt8 :=
  (workerEvents trace).flatMap (WorkerEvent.sentOn k)

@[simp] theorem workerEvents_append (first rest : List (Event ι)) :
    workerEvents (first ++ rest) = workerEvents first ++ workerEvents rest := List.filterMap_append

@[simp] theorem workerEvents_nil : workerEvents ([] : List (Event ι)) = [] := rfl

@[simp] theorem workerEvents_published (t : ι) (p : EncodedPacket) (result : Result) :
    workerEvents [.published t p result] = [] := rfl

@[simp] theorem workerEvents_worker (events : List WorkerEvent) :
    workerEvents (events.map (.worker (ι := ι))) = events := by
  simp [workerEvents, List.filterMap_map]

@[simp] theorem sentOn_append (k : Nat) (first rest : List (Event ι)) :
    sentOn k (first ++ rest) = sentOn k first ++ sentOn k rest := by
  simp [sentOn]

@[simp] theorem sentOn_nil (k : Nat) : sentOn k ([] : List (Event ι)) = [] := rfl

@[simp] theorem sentOn_published (k : Nat) (t : ι) (p : EncodedPacket) (result : Result) :
    sentOn k [.published t p result] = [] := rfl

@[simp] theorem sentOn_worker (k : Nat) (events : List WorkerEvent) :
    sentOn k (events.map (.worker (ι := ι))) = events.flatMap (WorkerEvent.sentOn k) := by
  simp [sentOn]

@[simp] theorem queuedOn_append (k : Nat) (first rest : List (Event ι)) :
    queuedOn k (first ++ rest) = queuedOn k first ++ queuedOn k rest := List.filterMap_append

@[simp] theorem queuedOn_nil (k : Nat) : queuedOn k ([] : List (Event ι)) = [] := rfl

@[simp] theorem queuedOn_worker (k : Nat) (events : List WorkerEvent) :
    queuedOn k (events.map (.worker (ι := ι))) = [] := by
  simp [queuedOn]

theorem queuedOn_published (k : Nat) (t : ι) (p : EncodedPacket) (result : Result) :
    queuedOn k [.published t p result] = if result = .queued k then [p] else [] := by
  unfold queuedOn
  split <;> simp_all

variable [DecidableEq ι]

@[simp] theorem callsOf_append (t : ι) (first rest : List (Event ι)) :
    callsOf t (first ++ rest) = callsOf t first ++ callsOf t rest := List.filterMap_append

@[simp] theorem callsOf_nil (t : ι) : callsOf t [] = [] := rfl

@[simp] theorem callsOf_worker (t : ι) (events : List WorkerEvent) :
    callsOf t (events.map .worker) = [] := by
  simp [callsOf]

@[simp] theorem callsOf_published_same (t : ι) (p : EncodedPacket) (result : Result) :
    callsOf t [.published t p result] = [(p, result)] := by
  simp [callsOf]

theorem callsOf_published_other {t u : ι} (other : u ≠ t) (p : EncodedPacket) (result : Result) :
    callsOf u [.published t p result] = [] := by
  simp [callsOf, Ne.symm other]

@[simp] theorem handed_append (t : ι) (first rest : List (Event ι)) :
    handed t (first ++ rest) = handed t first ++ handed t rest := by
  simp [handed]

@[simp] theorem handed_nil (t : ι) : handed t [] = [] := rfl

@[simp] theorem handed_worker (t : ι) (events : List WorkerEvent) :
    handed t (events.map .worker) = [] := by
  simp [handed]

theorem handed_published_other {t u : ι} (other : u ≠ t) (p : EncodedPacket) (result : Result) :
    handed u [.published t p result] = [] := by
  simp [handed, callsOf_published_other other]

theorem handed_published_same (t : ι) (p : EncodedPacket) (result : Result) :
    handed t [.published t p result] = if result.thrown then [] else [(p, result)] := by
  cases thrown : result.thrown <;> simp [handed, thrown]

def Homed (trace : List (Event (Fin MonitorCount))) : Prop :=
  ∀ t p result, .published t p result ∈ trace → streamIndex p.monitorId = some t

/-- The packets of one stream in the queue of a connection are those its publisher's
calls put there. -/
theorem queuedOn_stream (k : Nat) (stream : Fin MonitorCount)
    {trace : List (Event (Fin MonitorCount))} (homed : Homed trace) :
    (queuedOn k trace).filter (fun p => streamIndex p.monitorId = some stream) =
      ((handed stream trace).filter fun call => call.2 = .queued k).map Prod.fst := by
  induction trace with
  | nil => rfl
  | cons event trace ih =>
    have rest := ih fun t p result member => homed t p result (List.mem_cons_of_mem _ member)
    rw [← List.singleton_append, queuedOn_append, handed_append, List.filter_append,
      List.filter_append, List.map_append, rest]
    congr 1
    cases event with
    | worker event => rfl
    | published t p result =>
      have home := homed t p result List.mem_cons_self
      rw [queuedOn_published]
      by_cases same : t = stream
      · subst t
        rw [handed_published_same]
        by_cases queued : result = .queued k
        · subst result
          simp [home, Result.thrown]
        · cases thrown : result.thrown <;> simp [queued]
      · rw [handed_published_other (Ne.symm same)]
        by_cases queued : result = .queued k <;> simp [queued, home, same]

end Quest.Transport
