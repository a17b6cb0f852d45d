import TszyUlt.Lib.Table
import TszyUlt.Lib.Transition
import TszyUlt.Zbf.Histogram

/-!
# The counters of the statistics

`RequestStat` of `zbf/request_stat.hpp`. A worker calls `onReqStart`, `onReqFinish` and
`sampleQueueDepth`, and the thread of the statistics calls `consume`, which takes what the counters
hold and puts zero in its place, one counter after the other. Each atomic operation and each section
under `_metricsMutex` is a step of its own, so that a request may be split over two snapshots.

`StatCalls` is the `RequestStat` with both threads, the snapshots and what an observer records: the
additions that were completed, the depths that were sampled, and how many requests were started and
finished. `Conserved` says that nothing is lost or counted twice, modulo the sizes of the counters;
`ConservedExactly` that the sums are exact, which holds as long as no counter is added to past its
largest value (`conserved_of_run`).

Scope. There is one worker, which finishes a request before it starts the next one. Where the order
of an unordered map or the failure of a weak exchange is open, it is an input, and so is the clock.
-/

set_option autoImplicit false
set_option relaxedAutoImplicit false

namespace TszyUlt.Zbf

open Lib

/-! ### The counters -/

/-- The type of a request. -/
abbrev RequestType := BitVec 32

/-- `RequestStat::PerTypeMetrics`. -/
structure PerTypeMetrics where
  latencyHist : Histogram
  totalCount : ℤ
  totalReqBytes : ℤ
  totalRspBytes : ℤ

/-- Before any request. -/
def PerTypeMetrics.new : PerTypeMetrics := ⟨.new, 0, 0, 0⟩

/-- The counters of a `PerTypeMetrics` that are added to. -/
inductive Counter
  | totalCount
  | totalReqBytes
  | totalRspBytes
  | bucket (index : Fin kNumBuckets)
  | count
  | sum
  deriving DecidableEq, Repr

namespace Counter

/-- The value of a counter. -/
def read (metrics : PerTypeMetrics) : Counter → ℤ
  | totalCount => metrics.totalCount
  | totalReqBytes => metrics.totalReqBytes
  | totalRspBytes => metrics.totalRspBytes
  | bucket index => metrics.latencyHist.buckets index
  | count => metrics.latencyHist.count
  | sum => metrics.latencyHist.sum

/-- The metrics with another value of a counter. -/
def write (metrics : PerTypeMetrics) (value : ℤ) : Counter → PerTypeMetrics
  | totalCount => { metrics with totalCount := value }
  | totalReqBytes => { metrics with totalReqBytes := value }
  | totalRspBytes => { metrics with totalRspBytes := value }
  | bucket index =>
    { metrics with latencyHist :=
      { metrics.latencyHist with
        buckets := Function.update metrics.latencyHist.buckets index value } }
  | count => { metrics with latencyHist := { metrics.latencyHist with count := value } }
  | sum => { metrics with latencyHist := { metrics.latencyHist with sum := value } }

/-- `int` or `int64_t`. -/
def bits : Counter → ℕ
  | totalCount | bucket _ | count => 32
  | totalReqBytes | totalRspBytes | sum => 64

/-- The counters that go up by one. -/
def ofOnes : Counter → Bool
  | totalCount | bucket _ | count => true
  | totalReqBytes | totalRspBytes | sum => false

/-- `fetch_add`. -/
def fetchAdd (metrics : PerTypeMetrics) (counter : Counter) (amount : ℤ) : PerTypeMetrics :=
  counter.write metrics (wrapAdd counter.bits (counter.read metrics) amount)

@[simp] theorem read_write_self (metrics : PerTypeMetrics) (value : ℤ) (counter : Counter) :
    counter.read (counter.write metrics value) = value := by
  cases counter with
  | bucket index => exact Function.update_self _ _ _
  | _ => rfl

theorem read_write_of_ne (metrics : PerTypeMetrics) (value : ℤ) {counter other : Counter}
    (hne : other ≠ counter) : other.read (counter.write metrics value) = other.read metrics := by
  cases counter with
  | bucket index =>
    cases other with
    | bucket other =>
      exact Function.update_of_ne (fun heq ↦ hne (congrArg bucket heq)) _ _
    | _ => rfl
  | _ =>
    cases other with
    | _ => first | rfl | exact absurd rfl hne

theorem bits_pos (counter : Counter) : 0 < counter.bits := by
  cases counter with
  | bucket index => exact Nat.succ_pos 31
  | _ => decide

/-- The costs at the ends are no counters. -/
@[simp] theorem read_with_maxCost (metrics : PerTypeMetrics) (cost : ℤ) (counter : Counter) :
    counter.read { metrics with latencyHist := { metrics.latencyHist with maxCost := cost } } =
      counter.read metrics := by
  cases counter <;> rfl

@[simp] theorem read_with_minCost (metrics : PerTypeMetrics) (cost : ℤ) (counter : Counter) :
    counter.read { metrics with latencyHist := { metrics.latencyHist with minCost := cost } } =
      counter.read metrics := by
  cases counter <;> rfl

@[simp] theorem read_new (counter : Counter) : counter.read .new = 0 := by
  cases counter <;> rfl

end Counter

/-- The additions of `onReqFinish` for a request: the totals, and those of `observe`. -/
def additions (reqBytes rspBytes : BitVec 32) (costMs : ℤ) : List (Counter × ℤ) :=
  [(Counter.totalCount, 1), (Counter.totalReqBytes, (reqBytes.toNat : ℤ)),
    (Counter.totalRspBytes, (rspBytes.toNat : ℤ))] ++
    if costMs < 0 then []
    else [(Counter.bucket (bucketIndex costMs), 1), (Counter.count, 1), (Counter.sum, costMs)]

/-! ### The threads -/

/-- Where the worker stands: between two calls, or before the next step of a call. -/
inductive StatWorkerAt
  | between
  /-- In `onReqStart`. -/
  | starting (requestType : RequestType)
  | recording (requestType : RequestType)
  /-- In `onReqFinish`, where `_reqStartTime` has the request. -/
  | finishing (requestType : RequestType) (reqBytes rspBytes : BitVec 32) (start : ℤ)
  | timing (requestType : RequestType) (reqBytes rspBytes : BitVec 32) (start : ℤ)
  /-- Before `getOrCreateMetrics`. -/
  | metrics (requestType : RequestType) (reqBytes rspBytes : BitVec 32) (costMs : ℤ)
  | adding (requestType : RequestType) (costMs : ℤ) (todo : List (Counter × ℤ))
  /-- In `observe`, at the loops for the largest and the smallest cost. -/
  | maxLoad (requestType : RequestType) (costMs : ℤ)
  | maxSwap (requestType : RequestType) (costMs cur : ℤ)
  | minLoad (requestType : RequestType) (costMs : ℤ)
  | minSwap (requestType : RequestType) (costMs cur : ℤ)
  /-- In `sampleQueueDepth`. -/
  | depthLoad (depth : ℕ)
  | depthSwap (depth cur : ℕ)
  deriving DecidableEq, Repr

/-- `RequestStat::TypeSnapshot`. What was not taken yet is zero. -/
structure TypeSnapshot where
  requestType : RequestType
  taken : PerTypeMetrics

/-- `RequestStat::Snapshot`. -/
structure StatSnapshot where
  inflightCount : ℕ
  maxQueueDepth : ℕ
  types : List TypeSnapshot

/-- What `consume` exchanges for each type. -/
inductive StatField
  | counter (counter : Counter)
  | maxCost
  | minCost
  deriving DecidableEq, Repr

/-- The exchanges for a type in their order. -/
def StatField.all : List StatField :=
  [.counter .totalCount, .counter .totalReqBytes, .counter .totalRspBytes] ++
    (List.finRange kNumBuckets).map (fun index ↦ .counter (.bucket index)) ++
    [.counter .count, .counter .sum, .maxCost, .minCost]

/-- Where `consume` stands, with the snapshot that it makes. -/
inductive ConsumeAt
  | idle
  /-- Before the exchange of `_maxQueueDepth`. -/
  | depth (inflightCount : ℕ)
  | lock (snap : StatSnapshot)
  /-- In the loop over the types, with those that are left. -/
  | types (snap : StatSnapshot) (left : List RequestType)
  /-- At a type, with the exchanges that are left. -/
  | fields (snap : StatSnapshot) (current : TypeSnapshot) (todo : List StatField)
      (left : List RequestType)

/-- `RequestStat` with the worker and the thread of the statistics. The last five fields are an
observer's. -/
structure StatCalls where
  inflightCount : ℕ := 0
  maxQueueDepth : ℕ := 0
  reqStartTime : Table RequestType ℤ := Table.empty
  metrics : RequestType → PerTypeMetrics := fun _ ↦ .new
  /-- The keys of `_metrics`. -/
  created : List RequestType := []
  worker : StatWorkerAt := .between
  /-- The request that was started and is to be finished next. -/
  current : Option RequestType := none
  consumer : ConsumeAt := .idle
  snapshots : List StatSnapshot := []
  /-- The additions that were completed. -/
  added : List (RequestType × Counter × ℤ) := []
  sampled : List ℕ := []
  started : ℕ := 0
  finished : ℕ := 0

/-- A step of one of the threads. -/
inductive StatCallAction
  | onReqStart (requestType : RequestType)
  | onReqFinish (reqBytes rspBytes : BitVec 32)
  | sampleQueueDepth (depth : BitVec 32)
  /-- The worker reads the clock. -/
  | clock (now : ℤ)
  /-- The next atomic operation or section of the worker; a weak exchange may fail. -/
  | worker (spurious : Bool)
  | consume
  /-- `consume` takes the lock and finds the types in an order. -/
  | lock (order : List RequestType)
  /-- The next atomic operation of `consume`, or its end. -/
  | consumer

namespace StatCalls

/-- `socket_utils::TimeStampErr`. -/
def timeStampErr : ℤ := 0

/-- `_metricsMutex` is held by `consume`. -/
def locked (calls : StatCalls) : Bool :=
  match calls.consumer with
  | .types _ _ => true
  | .fields _ _ _ _ => true
  | _ => false

/-- The metrics of a type change. -/
def setMetrics (calls : StatCalls) (requestType : RequestType) (found : PerTypeMetrics) :
    StatCalls :=
  { calls with metrics := Function.update calls.metrics requestType found }

/-- The largest cost of a type changes. -/
def setMaxCost (calls : StatCalls) (requestType : RequestType) (cost : ℤ) : StatCalls :=
  calls.setMetrics requestType
    { calls.metrics requestType with
      latencyHist := { (calls.metrics requestType).latencyHist with maxCost := cost } }

/-- The smallest cost of a type changes. -/
def setMinCost (calls : StatCalls) (requestType : RequestType) (cost : ℤ) : StatCalls :=
  calls.setMetrics requestType
    { calls.metrics requestType with
      latencyHist := { (calls.metrics requestType).latencyHist with minCost := cost } }

/-- The worker after the additions. -/
def afterAdding (requestType : RequestType) (costMs : ℤ) : StatWorkerAt :=
  if costMs < 0 then .between else .maxLoad requestType costMs

/-- The worker after it has read the largest cost. -/
def afterMax (requestType : RequestType) (costMs cur : ℤ) : StatWorkerAt :=
  if costMs > cur then .maxSwap requestType costMs cur else .minLoad requestType costMs

/-- The worker after it has read the smallest cost. -/
def afterMin (requestType : RequestType) (costMs cur : ℤ) : StatWorkerAt :=
  if costMs < cur then .minSwap requestType costMs cur else .between

/-- The worker has read the depth: it goes on, or the sample is completed. -/
def afterDepth (calls : StatCalls) (depth cur : ℕ) : StatCalls :=
  if depth > cur then { calls with worker := .depthSwap depth cur }
  else { calls with worker := .between, sampled := calls.sampled ++ [depth] }

/-- An atomic operation or a section of the worker. -/
def workerStep (calls : StatCalls) (spurious : Bool) : Option StatCalls :=
  match calls.worker with
  | .starting requestType =>
    some { calls with
      inflightCount := (calls.inflightCount + 1) % 2 ^ 32, worker := .recording requestType }
  | .finishing requestType reqBytes rspBytes start =>
    some { calls with
      inflightCount := (calls.inflightCount + (2 ^ 32 - 1)) % 2 ^ 32
      reqStartTime := calls.reqStartTime.erase requestType
      worker := .timing requestType reqBytes rspBytes start }
  | .metrics requestType reqBytes rspBytes costMs =>
    if calls.locked then none
    else
      some { calls with
        created := if requestType ∈ calls.created then calls.created
          else calls.created ++ [requestType]
        worker := .adding requestType costMs (additions reqBytes rspBytes costMs) }
  | .adding requestType costMs ((counter, amount) :: todo) =>
    some { calls.setMetrics requestType
        (counter.fetchAdd (calls.metrics requestType) amount) with
      added := calls.added ++ [(requestType, counter, amount)]
      worker := if todo = [] then afterAdding requestType costMs
        else .adding requestType costMs todo }
  | .maxLoad requestType costMs =>
    some { calls with
      worker := afterMax requestType costMs (calls.metrics requestType).latencyHist.maxCost }
  | .maxSwap requestType costMs cur =>
    let found := (calls.metrics requestType).latencyHist.maxCost
    if found = cur ∧ spurious = false then
      some { calls.setMaxCost requestType costMs with worker := .minLoad requestType costMs }
    else some { calls with worker := afterMax requestType costMs found }
  | .minLoad requestType costMs =>
    some { calls with
      worker := afterMin requestType costMs (calls.metrics requestType).latencyHist.minCost }
  | .minSwap requestType costMs cur =>
    let found := (calls.metrics requestType).latencyHist.minCost
    if found = cur ∧ spurious = false then
      some { calls.setMinCost requestType costMs with worker := .between }
    else some { calls with worker := afterMin requestType costMs found }
  | .depthLoad depth => some (calls.afterDepth depth calls.maxQueueDepth)
  | .depthSwap depth cur =>
    if calls.maxQueueDepth = cur ∧ spurious = false then
      some { calls with
        maxQueueDepth := depth, worker := .between, sampled := calls.sampled ++ [depth] }
    else some (calls.afterDepth depth calls.maxQueueDepth)
  | _ => none

/-- The worker reads the clock: a failure, or a request whose start could not be timed, ends
`onReqFinish`. The cost is converted to `int`. -/
def clockStep (calls : StatCalls) (now : ℤ) : Option StatCalls :=
  match calls.worker with
  | .recording requestType =>
    some { calls with
      reqStartTime := Function.update calls.reqStartTime requestType (some now)
      worker := .between
      current := some requestType }
  | .timing requestType reqBytes rspBytes start =>
    some { calls with
      worker := if start = timeStampErr ∨ now = timeStampErr then .between
        else .metrics requestType reqBytes rspBytes ((now - start).bmod (2 ^ 32)) }
  | _ => none

/-- An exchange of `consume` for a type. -/
def exchange (calls : StatCalls) (current : TypeSnapshot) : StatField → StatCalls × TypeSnapshot
  | .counter counter =>
    (calls.setMetrics current.requestType
        (counter.write (calls.metrics current.requestType) 0),
      { current with
        taken := counter.write current.taken
          (counter.read (calls.metrics current.requestType)) })
  | .maxCost =>
    (calls.setMaxCost current.requestType 0,
      { current with taken := { current.taken with latencyHist :=
        { current.taken.latencyHist with
          maxCost := (calls.metrics current.requestType).latencyHist.maxCost } } })
  | .minCost =>
    (calls.setMinCost current.requestType intMax,
      { current with taken := { current.taken with latencyHist :=
        { current.taken.latencyHist with
          minCost := (calls.metrics current.requestType).latencyHist.minCost } } })

/-- The next atomic operation of `consume`, or its end. -/
def consumerStep (calls : StatCalls) : Option StatCalls :=
  match calls.consumer with
  | .depth inflightCount =>
    some { calls with
      maxQueueDepth := 0
      consumer := .lock ⟨inflightCount, calls.maxQueueDepth, []⟩ }
  | .types snap [] =>
    some { calls with consumer := .idle, snapshots := calls.snapshots ++ [snap] }
  | .types snap (requestType :: left) =>
    some { calls with consumer := .fields snap ⟨requestType, .new⟩ StatField.all left }
  | .fields snap current [] left =>
    some { calls with consumer := .types { snap with types := snap.types ++ [current] } left }
  | .fields snap current (field :: todo) left =>
    let (calls, current) := calls.exchange current field
    some { calls with consumer := .fields snap current todo left }
  | _ => none

/-- The steps of the threads. -/
def step (calls : StatCalls) : StatCallAction → Option StatCalls
  | .onReqStart requestType =>
    if calls.worker = .between ∧ calls.current = none then
      some { calls with worker := .starting requestType, started := calls.started + 1 }
    else none
  | .onReqFinish reqBytes rspBytes =>
    if calls.worker = .between then
      match calls.current with
      | none => none
      | some requestType =>
        let calls := { calls with current := none, finished := calls.finished + 1 }
        match calls.reqStartTime requestType with
        | none => some calls
        | some start =>
          some { calls with worker := .finishing requestType reqBytes rspBytes start }
    else none
  | .sampleQueueDepth depth =>
    if calls.worker = .between then some { calls with worker := .depthLoad depth.toNat } else none
  | .clock now => calls.clockStep now
  | .worker spurious => calls.workerStep spurious
  | .consume =>
    match calls.consumer with
    | .idle =>
      some { calls with consumer := .depth calls.inflightCount }
    | _ => none
  | .lock order =>
    match calls.consumer with
    | .lock snap =>
      if order.Perm calls.created then some { calls with consumer := .types snap order } else none
    | _ => none
  | .consumer => calls.consumerStep

/-! ### What is conserved -/

/-- What snapshots of types took of a counter. -/
def takenOf (requestType : RequestType) (counter : Counter) (types : List TypeSnapshot) : ℤ :=
  ((types.filter fun snap ↦ snap.requestType = requestType).map
    fun snap ↦ counter.read snap.taken).sum

/-- The snapshot that `consume` makes, from its first exchange on. -/
def making : ConsumeAt → List StatSnapshot
  | .idle | .depth _ => []
  | .lock snap | .types snap _ => [snap]
  | .fields snap current _ _ => [{ snap with types := snap.types ++ [current] }]

/-- The snapshots with the one that is made. -/
def allSnapshots (calls : StatCalls) : List StatSnapshot := calls.snapshots ++ making calls.consumer

/-- The sum of a counter over the snapshots. -/
def taken (calls : StatCalls) (requestType : RequestType) (counter : Counter) : ℤ :=
  takenOf requestType counter (calls.allSnapshots.flatMap StatSnapshot.types)

/-- The value that is still in a counter. -/
def stored (calls : StatCalls) (requestType : RequestType) (counter : Counter) : ℤ :=
  counter.read (calls.metrics requestType)

/-- The amounts of the completed additions to a counter. -/
def addedTo (calls : StatCalls) (requestType : RequestType) (counter : Counter) : List ℤ :=
  calls.added.filterMap fun addition ↦
    if addition.1 = requestType ∧ addition.2.1 = counter then some addition.2.2 else none

/-- A depth is not lost: it does not pass the one that is stored, or that of a snapshot. -/
def Covered (calls : StatCalls) (depth : ℕ) : Prop :=
  depth ≤ calls.maxQueueDepth ∨ ∃ snap ∈ calls.allSnapshots, depth ≤ snap.maxQueueDepth

/-- Nothing is lost or counted twice, modulo the sizes of the counters. -/
structure Conserved (calls : StatCalls) : Prop where
  drained : ∀ requestType counter, Drained counter.bits (calls.taken requestType counter)
    (calls.stored requestType counter) (calls.addedTo requestType counter).sum
  ofOnes : ∀ requestType (counter : Counter), counter.ofOnes →
    (calls.addedTo requestType counter).sum = (calls.addedTo requestType counter).length
  covered : ∀ depth ∈ calls.sampled, calls.Covered depth
  inflight : calls.worker = .between → calls.inflightCount + calls.finished = calls.started

/-- The sums are exact. -/
def ConservedExactly (calls : StatCalls) : Prop :=
  ∀ requestType counter, calls.taken requestType counter + calls.stored requestType counter =
    (calls.addedTo requestType counter).sum

/-- An action adds to no counter past its largest value. -/
def AddsFit (calls : StatCalls) : StatCallAction → Prop
  | .worker _ =>
    match calls.worker with
    | .adding requestType _ ((counter, amount) :: _) =>
      Fits counter.bits (calls.stored requestType counter) amount
    | _ => True
  | _ => True

instance decidableAddsFit : ∀ calls action, Decidable (AddsFit calls action)
  | calls, .worker _ => by
    unfold AddsFit Fits
    dsimp only
    split <;> infer_instance
  | _, .onReqStart _ | _, .onReqFinish _ _ | _, .sampleQueueDepth _ | _, .clock _ | _, .consume
  | _, .lock _ | _, .consumer => isTrue trivial

/-! ### What a step does -/

/-- What the worker is about to add is not negative, and one for a counter that goes up by one; and
it raises the depth. -/
def Pending : StatWorkerAt → Prop
  | .adding _ _ todo =>
    ∀ addition ∈ todo, 0 ≤ addition.2 ∧ (addition.1.ofOnes → addition.2 = 1)
  | .depthSwap depth cur => cur < depth
  | _ => True

/-- The worker is not in the part of a call in which its request is in flight. -/
def Outside : StatWorkerAt → Prop
  | .starting _ | .recording _ | .finishing _ _ _ _ => False
  | _ => True

/-- The worker has taken its request out of flight, and is not done with it. -/
def Closing : StatWorkerAt → Prop
  | .timing _ _ _ _ | .metrics _ _ _ _ | .adding _ _ _ | .maxLoad _ _ | .maxSwap _ _ _
  | .minLoad _ _ | .minSwap _ _ _ => True
  | _ => False

/-- The worker is in no call for a request. -/
def Resting : StatWorkerAt → Prop
  | .between | .depthLoad _ | .depthSwap _ _ => True
  | _ => False

section Moves

variable {calls next : StatCalls}

/-- The steps of the threads, by what they change. -/
inductive Moves (calls : StatCalls) : StatCallAction → StatCalls → Prop
  | start (requestType : RequestType) (hbetween : calls.worker = .between)
      (hnone : calls.current = none) :
      Moves calls (.onReqStart requestType)
        { calls with worker := .starting requestType, started := calls.started + 1 }
  | count (requestType : RequestType) (spurious : Bool)
      (hworker : calls.worker = .starting requestType) :
      Moves calls (.worker spurious)
        { calls with
          inflightCount := (calls.inflightCount + 1) % 2 ^ 32, worker := .recording requestType }
  | record (requestType : RequestType) (now : ℤ) (hworker : calls.worker = .recording requestType) :
      Moves calls (.clock now)
        { calls with
          reqStartTime := Function.update calls.reqStartTime requestType (some now)
          worker := .between
          current := some requestType }
  /-- The start of the request was not recorded. -/
  | finishUntimed (requestType : RequestType) (reqBytes rspBytes : BitVec 32)
      (hbetween : calls.worker = .between) (hcurrent : calls.current = some requestType)
      (hstart : calls.reqStartTime requestType = none) :
      Moves calls (.onReqFinish reqBytes rspBytes)
        { calls with current := none, finished := calls.finished + 1 }
  | finish (requestType : RequestType) (reqBytes rspBytes : BitVec 32) (start : ℤ)
      (hbetween : calls.worker = .between) (hcurrent : calls.current = some requestType) :
      Moves calls (.onReqFinish reqBytes rspBytes)
        { calls with
          current := none
          finished := calls.finished + 1
          worker := .finishing requestType reqBytes rspBytes start }
  | uncount (requestType : RequestType) (reqBytes rspBytes : BitVec 32) (start : ℤ)
      (spurious : Bool) (hworker : calls.worker = .finishing requestType reqBytes rspBytes start) :
      Moves calls (.worker spurious)
        { calls with
          inflightCount := (calls.inflightCount + (2 ^ 32 - 1)) % 2 ^ 32
          reqStartTime := calls.reqStartTime.erase requestType
          worker := .timing requestType reqBytes rspBytes start }
  | add (requestType : RequestType) (costMs : ℤ) (counter : Counter) (amount : ℤ)
      (todo : List (Counter × ℤ)) (spurious : Bool)
      (hworker : calls.worker = .adding requestType costMs ((counter, amount) :: todo)) :
      Moves calls (.worker spurious)
        { calls.setMetrics requestType
            (counter.fetchAdd (calls.metrics requestType) amount) with
          added := calls.added ++ [(requestType, counter, amount)]
          worker := if todo = [] then afterAdding requestType costMs
            else .adding requestType costMs todo }
  /-- The worker goes on with a request and adds to no counter. -/
  | goOn (action : StatCallAction) (found : RequestType → PerTypeMetrics)
      (created : List RequestType) (worker : StatWorkerAt) (hclosing : Closing calls.worker)
      (hpending : Pending worker) (houtside : Outside worker)
      (hread : ∀ requestType (counter : Counter),
        counter.read (found requestType) = counter.read (calls.metrics requestType)) :
      Moves calls action { calls with metrics := found, created := created, worker := worker }
  | sample (depth : BitVec 32) (hbetween : calls.worker = .between) :
      Moves calls (.sampleQueueDepth depth) { calls with worker := .depthLoad depth.toNat }
  | aim (depth : ℕ) (spurious : Bool) (hresting : Resting calls.worker)
      (hlt : calls.maxQueueDepth < depth) :
      Moves calls (.worker spurious)
        { calls with worker := .depthSwap depth calls.maxQueueDepth }
  | sampled (depth : ℕ) (spurious : Bool) (hresting : Resting calls.worker)
      (hle : depth ≤ calls.maxQueueDepth) :
      Moves calls (.worker spurious)
        { calls with worker := .between, sampled := calls.sampled ++ [depth] }
  | raise (depth : ℕ) (spurious : Bool)
      (hworker : calls.worker = .depthSwap depth calls.maxQueueDepth) :
      Moves calls (.worker spurious)
        { calls with
          maxQueueDepth := depth, worker := .between, sampled := calls.sampled ++ [depth] }
  | consume (hidle : calls.consumer = .idle) :
      Moves calls .consume { calls with consumer := .depth calls.inflightCount }
  | takeDepth (inflightCount : ℕ) (hconsumer : calls.consumer = .depth inflightCount) :
      Moves calls .consumer
        { calls with
          maxQueueDepth := 0
          consumer := .lock ⟨inflightCount, calls.maxQueueDepth, []⟩ }
  | lock (snap : StatSnapshot) (order : List RequestType)
      (hconsumer : calls.consumer = .lock snap) :
      Moves calls (.lock order) { calls with consumer := .types snap order }
  | enterType (snap : StatSnapshot) (requestType : RequestType) (left : List RequestType)
      (hconsumer : calls.consumer = .types snap (requestType :: left)) :
      Moves calls .consumer
        { calls with consumer := .fields snap ⟨requestType, .new⟩ StatField.all left }
  | exchange (snap : StatSnapshot) (current : TypeSnapshot) (field : StatField)
      (todo : List StatField) (left : List RequestType)
      (hconsumer : calls.consumer = .fields snap current (field :: todo) left) :
      Moves calls .consumer
        { (calls.exchange current field).1 with
          consumer := .fields snap (calls.exchange current field).2 todo left }
  | leaveType (snap : StatSnapshot) (current : TypeSnapshot) (left : List RequestType)
      (hconsumer : calls.consumer = .fields snap current [] left) :
      Moves calls .consumer
        { calls with consumer := .types { snap with types := snap.types ++ [current] } left }
  | release (snap : StatSnapshot) (hconsumer : calls.consumer = .types snap []) :
      Moves calls .consumer
        { calls with consumer := .idle, snapshots := calls.snapshots ++ [snap] }

theorem pending_additions (requestType : RequestType) (reqBytes rspBytes : BitVec 32)
    (costMs : ℤ) : Pending (.adding requestType costMs (additions reqBytes rspBytes costMs)) := by
  intro addition hmem
  unfold additions at hmem
  split at hmem
  all_goals
    simp only [List.append_nil, List.cons_append, List.nil_append, List.mem_cons,
      List.not_mem_nil, or_false] at hmem
  · rcases hmem with rfl | rfl | rfl <;> simp [Counter.ofOnes]
  · rename_i hnonneg
    rcases hmem with rfl | rfl | rfl | rfl | rfl | rfl <;>
      simp [Counter.ofOnes, Int.not_lt.mp hnonneg]

theorem settled_afterAdding (requestType : RequestType) (costMs : ℤ) :
    Pending (afterAdding requestType costMs) ∧ Outside (afterAdding requestType costMs) := by
  unfold afterAdding
  split <;> exact ⟨trivial, trivial⟩

theorem settled_afterMax (requestType : RequestType) (costMs cur : ℤ) :
    Pending (afterMax requestType costMs cur) ∧ Outside (afterMax requestType costMs cur) := by
  unfold afterMax
  split <;> exact ⟨trivial, trivial⟩

theorem settled_afterMin (requestType : RequestType) (costMs cur : ℤ) :
    Pending (afterMin requestType costMs cur) ∧ Outside (afterMin requestType costMs cur) := by
  unfold afterMin
  split <;> exact ⟨trivial, trivial⟩

/-- The counters of all types do not change with the largest cost of one. -/
theorem read_setMaxCost (calls : StatCalls) (requestType : RequestType) (cost : ℤ)
    (requestType' : RequestType) (counter : Counter) :
    counter.read ((calls.setMaxCost requestType cost).metrics requestType') =
      counter.read (calls.metrics requestType') := by
  unfold setMaxCost setMetrics
  by_cases hsame : requestType' = requestType
  · subst hsame
    dsimp only
    rw [Function.update_self, Counter.read_with_maxCost]
  · dsimp only
    rw [Function.update_of_ne hsame]

theorem read_setMinCost (calls : StatCalls) (requestType : RequestType) (cost : ℤ)
    (requestType' : RequestType) (counter : Counter) :
    counter.read ((calls.setMinCost requestType cost).metrics requestType') =
      counter.read (calls.metrics requestType') := by
  unfold setMinCost setMetrics
  by_cases hsame : requestType' = requestType
  · subst hsame
    dsimp only
    rw [Function.update_self, Counter.read_with_minCost]
  · dsimp only
    rw [Function.update_of_ne hsame]

/-- The worker has read the depth. -/
theorem moves_afterDepth (depth : ℕ) (spurious : Bool) (hresting : Resting calls.worker) :
    Moves calls (.worker spurious) (calls.afterDepth depth calls.maxQueueDepth) := by
  unfold afterDepth
  split
  · exact .aim depth spurious hresting ‹_›
  · exact .sampled depth spurious hresting (Nat.not_lt.mp ‹_›)

theorem workerStep_moves {spurious : Bool} (hstep : calls.workerStep spurious = some next) :
    Moves calls (.worker spurious) next := by
  unfold workerStep at hstep
  cases hworker : calls.worker with
  | between | recording _ | timing _ _ _ _ =>
    rw [hworker] at hstep
    cases hstep
  | starting requestType =>
    simp only [hworker, Option.some.injEq] at hstep
    subst hstep
    exact .count requestType spurious hworker
  | finishing requestType reqBytes rspBytes start =>
    simp only [hworker, Option.some.injEq] at hstep
    subst hstep
    exact .uncount requestType reqBytes rspBytes start spurious hworker
  | metrics requestType reqBytes rspBytes costMs =>
    rw [hworker] at hstep
    dsimp only at hstep
    split at hstep
    · cases hstep
    · cases hstep
      exact .goOn _ calls.metrics _ _ (hworker ▸ trivial) (pending_additions _ _ _ _) trivial
        (fun _ _ ↦ rfl)
  | adding requestType costMs todo =>
    rw [hworker] at hstep
    cases todo with
    | nil => cases hstep
    | cons addition todo =>
      cases hstep
      exact .add requestType costMs addition.1 addition.2 todo spurious hworker
  | maxLoad requestType costMs =>
    rw [hworker] at hstep
    cases hstep
    have hsettled := settled_afterMax requestType costMs
      (calls.metrics requestType).latencyHist.maxCost
    exact .goOn _ calls.metrics calls.created _ (hworker ▸ trivial) hsettled.1 hsettled.2
      (fun _ _ ↦ rfl)
  | maxSwap requestType costMs cur =>
    rw [hworker] at hstep
    dsimp only at hstep
    split at hstep
    · cases hstep
      exact .goOn _ _ calls.created _ (hworker ▸ trivial) trivial trivial
        (calls.read_setMaxCost requestType costMs)
    · cases hstep
      have hsettled := settled_afterMax requestType costMs
        (calls.metrics requestType).latencyHist.maxCost
      exact .goOn _ calls.metrics calls.created _ (hworker ▸ trivial) hsettled.1 hsettled.2
        (fun _ _ ↦ rfl)
  | minLoad requestType costMs =>
    rw [hworker] at hstep
    cases hstep
    have hsettled := settled_afterMin requestType costMs
      (calls.metrics requestType).latencyHist.minCost
    exact .goOn _ calls.metrics calls.created _ (hworker ▸ trivial) hsettled.1 hsettled.2
      (fun _ _ ↦ rfl)
  | minSwap requestType costMs cur =>
    rw [hworker] at hstep
    dsimp only at hstep
    split at hstep
    · cases hstep
      exact .goOn _ _ calls.created _ (hworker ▸ trivial) trivial trivial
        (calls.read_setMinCost requestType costMs)
    · cases hstep
      have hsettled := settled_afterMin requestType costMs
        (calls.metrics requestType).latencyHist.minCost
      exact .goOn _ calls.metrics calls.created _ (hworker ▸ trivial) hsettled.1 hsettled.2
        (fun _ _ ↦ rfl)
  | depthLoad depth =>
    rw [hworker] at hstep
    cases hstep
    exact moves_afterDepth depth spurious (hworker ▸ trivial)
  | depthSwap depth cur =>
    rw [hworker] at hstep
    dsimp only at hstep
    split at hstep
    · rename_i hfound
      cases hstep
      exact .raise depth spurious (hfound.1 ▸ hworker)
    · cases hstep
      exact moves_afterDepth depth spurious (hworker ▸ trivial)

theorem clockStep_moves {now : ℤ} (hstep : calls.clockStep now = some next) :
    Moves calls (.clock now) next := by
  unfold clockStep at hstep
  split at hstep
  · cases hstep
    exact .record _ now ‹_›
  · rename_i hworker
    cases hstep
    refine .goOn _ calls.metrics calls.created _ (hworker ▸ trivial) ?_ ?_ (fun _ _ ↦ rfl)
    · split <;> trivial
    · split <;> trivial
  · cases hstep

theorem consumerStep_moves (hstep : calls.consumerStep = some next) :
    Moves calls .consumer next := by
  unfold consumerStep at hstep
  split at hstep
  · cases hstep
    exact .takeDepth _ ‹_›
  · cases hstep
    exact .release _ ‹_›
  · cases hstep
    exact .enterType _ _ _ ‹_›
  · cases hstep
    exact .leaveType _ _ _ ‹_›
  · cases hstep
    exact .exchange _ _ _ _ _ ‹_›
  · cases hstep

theorem step_moves {action : StatCallAction} (hstep : calls.step action = some next) :
    Moves calls action next := by
  cases action with
  | onReqStart requestType =>
    simp only [step] at hstep
    split at hstep
    · rename_i hbetween
      cases hstep
      exact .start requestType hbetween.1 hbetween.2
    · cases hstep
  | onReqFinish reqBytes rspBytes =>
    simp only [step] at hstep
    split at hstep
    · rename_i hbetween
      split at hstep
      · cases hstep
      · rename_i hcurrent
        split at hstep
        · cases hstep
          exact .finishUntimed _ reqBytes rspBytes hbetween hcurrent ‹_›
        · cases hstep
          exact .finish _ reqBytes rspBytes _ hbetween hcurrent
    · cases hstep
  | sampleQueueDepth depth =>
    simp only [step] at hstep
    split at hstep
    · cases hstep
      exact .sample depth ‹_›
    · cases hstep
  | clock now => exact clockStep_moves hstep
  | worker spurious => exact workerStep_moves hstep
  | consume =>
    simp only [step] at hstep
    split at hstep
    · cases hstep
      exact .consume ‹_›
    · cases hstep
  | lock order =>
    simp only [step] at hstep
    split at hstep
    · split at hstep
      · cases hstep
        exact .lock _ order ‹_›
      · cases hstep
    · cases hstep
  | consumer => exact consumerStep_moves hstep

end Moves

/-! ### The effect of a step -/

section Effect

variable {calls next : StatCalls}

theorem takenOf_append (requestType : RequestType) (counter : Counter)
    (first second : List TypeSnapshot) :
    takenOf requestType counter (first ++ second) =
      takenOf requestType counter first + takenOf requestType counter second := by
  rw [takenOf, List.filter_append, List.map_append, List.sum_append]
  rfl

theorem takenOf_singleton (requestType : RequestType) (counter : Counter) (snap : TypeSnapshot) :
    takenOf requestType counter [snap] =
      if snap.requestType = requestType then counter.read snap.taken else 0 := by
  rw [takenOf, List.filter_singleton]
  split_ifs with hsame <;> simp [hsame]

/-- What the snapshot that is made adds to a sum. -/
theorem taken_eq (calls : StatCalls) (requestType : RequestType) (counter : Counter) :
    calls.taken requestType counter =
      takenOf requestType counter (calls.snapshots.flatMap StatSnapshot.types) +
        takenOf requestType counter ((making calls.consumer).flatMap StatSnapshot.types) := by
  rw [taken, allSnapshots, List.flatMap_append, takenOf_append]

/-- What a step does to the counters: nothing, an addition of the worker, or the exchange of a
counter by `consume`. -/
inductive Effect (calls : StatCalls) (action : StatCallAction) (next : StatCalls) : Prop
  | still (hstored : next.stored = calls.stored) (hadded : next.added = calls.added)
      (htaken : next.taken = calls.taken)
  | add (requestType : RequestType) (cost : ℤ) (counter : Counter) (amount : ℤ)
      (todo : List (Counter × ℤ)) (haction : ∃ spurious, action = .worker spurious)
      (hworker : calls.worker = .adding requestType cost ((counter, amount) :: todo))
      (hstored : next.stored requestType counter =
        wrapAdd counter.bits (calls.stored requestType counter) amount)
      (hother : ∀ requestType' counter', (requestType', counter') ≠ (requestType, counter) →
        next.stored requestType' counter' = calls.stored requestType' counter')
      (hadded : next.added = calls.added ++ [(requestType, counter, amount)])
      (htaken : next.taken = calls.taken)
  | exchange (requestType : RequestType) (counter : Counter)
      (hstored : next.stored requestType counter = 0)
      (htaken : next.taken requestType counter =
        calls.taken requestType counter + calls.stored requestType counter)
      (hother : ∀ requestType' counter', (requestType', counter') ≠ (requestType, counter) →
        next.stored requestType' counter' = calls.stored requestType' counter' ∧
          next.taken requestType' counter' = calls.taken requestType' counter')
      (hadded : next.added = calls.added)

theorem stored_setMaxCost (calls : StatCalls) (requestType : RequestType) (cost : ℤ) :
    (calls.setMaxCost requestType cost).stored = calls.stored :=
  funext₂ (calls.read_setMaxCost requestType cost)

theorem stored_setMinCost (calls : StatCalls) (requestType : RequestType) (cost : ℤ) :
    (calls.setMinCost requestType cost).stored = calls.stored :=
  funext₂ (calls.read_setMinCost requestType cost)

/-- A counter that is written to. -/
theorem stored_setMetrics_write (calls : StatCalls) (requestType : RequestType) (counter : Counter)
    (value : ℤ) :
    (calls.setMetrics requestType
      (counter.write (calls.metrics requestType) value)).stored requestType counter = value := by
  unfold stored setMetrics
  dsimp only
  rw [Function.update_self, Counter.read_write_self]

/-- The other counters are left as they are. -/
theorem stored_setMetrics_of_ne (calls : StatCalls) {requestType requestType' : RequestType}
    {counter counter' : Counter} (value : ℤ)
    (hne : (requestType', counter') ≠ (requestType, counter)) :
    (calls.setMetrics requestType
      (counter.write (calls.metrics requestType) value)).stored requestType' counter' =
        calls.stored requestType' counter' := by
  unfold stored setMetrics
  dsimp only
  by_cases hsame : requestType' = requestType
  · subst hsame
    rw [Function.update_self, Counter.read_write_of_ne]
    exact fun heq ↦ hne (congrArg _ heq)
  · rw [Function.update_of_ne hsame]

/-- Neither the metrics nor the snapshots change. -/
theorem Effect.of_eq {action : StatCallAction} (hmetrics : next.metrics = calls.metrics)
    (hadded : next.added = calls.added) (hsnapshots : next.snapshots = calls.snapshots)
    (hconsumer : next.consumer = calls.consumer) : Effect calls action next := by
  refine .still ?_ hadded ?_
  · unfold stored
    rw [hmetrics]
  · unfold taken allSnapshots
    rw [hsnapshots, hconsumer]

/-- The exchanges that are left for a type are different ones, and what they will take is zero. -/
def Fresh : ConsumeAt → Prop
  | .fields _ current todo _ =>
    todo.Nodup ∧
      ∀ counter, StatField.counter counter ∈ todo → Counter.read current.taken counter = 0
  | _ => True

theorem nodup_all : StatField.all.Nodup := by decide

/-- The sums before and after the snapshot of a type changes. -/
theorem taken_add {snap : StatSnapshot} {current current' : TypeSnapshot}
    {todo todo' : List StatField} {left : List RequestType}
    (hsnapshots : next.snapshots = calls.snapshots)
    (hconsumer : calls.consumer = .fields snap current todo left)
    (hconsumer' : next.consumer = .fields snap current' todo' left) (requestType : RequestType)
    (counter : Counter) :
    next.taken requestType counter + takenOf requestType counter [current] =
      calls.taken requestType counter + takenOf requestType counter [current'] := by
  rw [taken_eq, taken_eq, hsnapshots, hconsumer, hconsumer']
  simp only [making, List.flatMap_singleton, takenOf_append]
  omega

/-- The sums are the same where no counter of the type is taken. -/
theorem taken_of_read {snap : StatSnapshot} {current current' : TypeSnapshot}
    {todo todo' : List StatField} {left : List RequestType}
    (hsnapshots : next.snapshots = calls.snapshots)
    (hconsumer : calls.consumer = .fields snap current todo left)
    (hconsumer' : next.consumer = .fields snap current' todo' left)
    (htype : current'.requestType = current.requestType)
    (hread : ∀ counter : Counter, counter.read current'.taken = counter.read current.taken) :
    next.taken = calls.taken := by
  funext requestType counter
  have hsum := taken_add hsnapshots hconsumer hconsumer' requestType counter
  rw [takenOf_singleton, takenOf_singleton, htype, hread] at hsum
  exact add_right_cancel hsum

theorem stored_congr (hmetrics : next.metrics = calls.metrics) : next.stored = calls.stored := by
  unfold stored
  rw [hmetrics]

/-- The effect of an exchange. -/
theorem effect_exchange {snap : StatSnapshot} {current current' : TypeSnapshot} {field : StatField}
    {todo : List StatField} {left : List RequestType} {exchanged : StatCalls}
    (hconsumer : calls.consumer = .fields snap current (field :: todo) left)
    (hfresh : Fresh calls.consumer)
    (hexchange : calls.exchange current field = (exchanged, current'))
    (hmetrics : next.metrics = exchanged.metrics) (hadded : next.added = calls.added)
    (hsnapshots : next.snapshots = calls.snapshots)
    (hconsumer' : next.consumer = .fields snap current' todo left) :
    Effect calls .consumer next := by
  have htaken := taken_add hsnapshots hconsumer hconsumer'
  have hstored := stored_congr hmetrics
  rw [hconsumer] at hfresh
  cases field with
  | counter counter =>
    have hzero := hfresh.2 counter List.mem_cons_self
    cases hexchange
    refine .exchange current.requestType counter ?_ ?_ (fun requestType' counter' hne ↦ ⟨?_, ?_⟩)
      hadded
    · rw [hstored]
      exact calls.stored_setMetrics_write _ _ _
    · have hsum := htaken current.requestType counter
      rw [takenOf_singleton, takenOf_singleton, if_pos rfl, if_pos rfl, hzero, Int.add_zero,
        Counter.read_write_self] at hsum
      exact hsum
    · rw [hstored]
      exact calls.stored_setMetrics_of_ne _ hne
    · have hsame : takenOf requestType' counter' [current] = takenOf requestType' counter'
          [⟨current.requestType,
            counter.write current.taken (counter.read (calls.metrics current.requestType))⟩] := by
        rw [takenOf_singleton, takenOf_singleton]
        by_cases htype : current.requestType = requestType'
        · subst htype
          rw [if_pos rfl, if_pos rfl, Counter.read_write_of_ne]
          exact fun heq ↦ hne (congrArg _ heq)
        · rw [if_neg htype, if_neg htype]
      have hsum := htaken requestType' counter'
      rw [hsame] at hsum
      exact add_right_cancel hsum
  | maxCost =>
    cases hexchange
    exact .still (hstored.trans (calls.stored_setMaxCost _ _)) hadded
      (taken_of_read hsnapshots hconsumer hconsumer' rfl fun _ ↦ Counter.read_with_maxCost _ _ _)
  | minCost =>
    cases hexchange
    exact .still (hstored.trans (calls.stored_setMinCost _ _)) hadded
      (taken_of_read hsnapshots hconsumer hconsumer' rfl fun _ ↦ Counter.read_with_minCost _ _ _)

/-- What a move does to the counters. -/
theorem effect_of_moves {action : StatCallAction} (hfresh : Fresh calls.consumer)
    (hmoves : Moves calls action next) : Effect calls action next := by
  cases hmoves with
  | add requestType costMs counter amount todo spurious hworker =>
    exact .add requestType costMs counter amount todo ⟨spurious, rfl⟩ hworker
      (calls.stored_setMetrics_write _ _ _)
      (fun _ _ hne ↦ calls.stored_setMetrics_of_ne _ hne) rfl rfl
  | goOn _ found created worker hclosing hpending houtside hread =>
    exact .still (funext₂ hread) rfl rfl
  | exchange snap current field todo left hconsumer =>
    refine effect_exchange hconsumer hfresh rfl rfl ?_ ?_ rfl
    · cases field <;> rfl
    · cases field <;> rfl
  | consume hidle =>
    refine .still rfl rfl (funext₂ fun requestType counter ↦ ?_)
    rw [taken_eq, taken_eq, hidle]
    rfl
  | takeDepth _ hconsumer | lock _ _ hconsumer | leaveType _ _ _ hconsumer =>
    refine .still rfl rfl (funext₂ fun requestType counter ↦ ?_)
    rw [taken_eq, taken_eq, hconsumer]
    rfl
  | enterType snap requestType' left hconsumer =>
    refine .still rfl rfl (funext₂ fun requestType counter ↦ ?_)
    rw [taken_eq, taken_eq, hconsumer]
    simp only [making, List.flatMap_singleton, takenOf_append, takenOf_singleton,
      Counter.read_new, ite_self, Int.add_zero]
  | release snap hconsumer =>
    refine .still rfl rfl (funext₂ fun requestType counter ↦ ?_)
    rw [taken_eq, taken_eq, hconsumer]
    simp only [making, List.flatMap_append, takenOf_append, List.flatMap_nil]
    exact Int.add_zero _
  | _ => exact .of_eq rfl rfl rfl rfl

theorem effect_step {action : StatCallAction} (hfresh : Fresh calls.consumer)
    (hstep : calls.step action = some next) : Effect calls action next :=
  effect_of_moves hfresh (step_moves hstep)

end Effect

/-! ### The threads -/

/-- How many requests are in flight, where the worker stands. -/
def InFlight (calls : StatCalls) : Prop :=
  match calls.worker with
  | .between | .depthLoad _ | .depthSwap _ _ =>
    match calls.current with
    | none => calls.inflightCount = 0 ∧ calls.started = calls.finished
    | some requestType => calls.inflightCount = 1 ∧ calls.started = calls.finished + 1 ∧
        (calls.reqStartTime requestType).isSome
  | .starting _ =>
    calls.current = none ∧ calls.inflightCount = 0 ∧ calls.started = calls.finished + 1
  | .recording _ =>
    calls.current = none ∧ calls.inflightCount = 1 ∧ calls.started = calls.finished + 1
  | .finishing _ _ _ _ =>
    calls.current = none ∧ calls.inflightCount = 1 ∧ calls.started = calls.finished
  | _ => calls.current = none ∧ calls.inflightCount = 0 ∧ calls.started = calls.finished

section Threads

variable {calls next : StatCalls}

/-- No request is in flight. -/
def NoneInFlight (calls : StatCalls) : Prop :=
  calls.current = none ∧ calls.inflightCount = 0 ∧ calls.started = calls.finished

/-- What is in flight between the calls for requests. -/
def RestingInFlight (calls : StatCalls) : Prop :=
  match calls.current with
  | none => calls.inflightCount = 0 ∧ calls.started = calls.finished
  | some requestType => calls.inflightCount = 1 ∧ calls.started = calls.finished + 1 ∧
      (calls.reqStartTime requestType).isSome

theorem InFlight.of_closing (hinFlight : InFlight calls) (hclosing : Closing calls.worker) :
    NoneInFlight calls := by
  unfold InFlight at hinFlight
  cases hworker : calls.worker with
  | between | starting _ | recording _ | finishing _ _ _ _ | depthLoad _ | depthSwap _ _ =>
    rw [hworker] at hclosing
    exact hclosing.elim
  | _ =>
    rw [hworker] at hinFlight
    exact hinFlight

theorem inFlight_iff (hresting : Resting calls.worker) :
    InFlight calls ↔ RestingInFlight calls := by
  unfold InFlight
  cases hworker : calls.worker with
  | between | depthLoad _ | depthSwap _ _ => exact Iff.rfl
  | _ =>
    rw [hworker] at hresting
    exact hresting.elim

theorem InFlight.of_resting (hinFlight : InFlight calls) (hresting : Resting calls.worker) :
    RestingInFlight calls :=
  (inFlight_iff hresting).mp hinFlight

theorem RestingInFlight.inFlight (hinFlight : RestingInFlight calls)
    (hresting : Resting calls.worker) : InFlight calls :=
  (inFlight_iff hresting).mpr hinFlight

theorem NoneInFlight.inFlight (hnone : NoneInFlight calls) (houtside : Outside calls.worker) :
    InFlight calls := by
  unfold InFlight
  cases hworker : calls.worker with
  | starting _ | recording _ | finishing _ _ _ _ =>
    rw [hworker] at houtside
    exact houtside.elim
  | between | depthLoad _ | depthSwap _ _ =>
    dsimp only
    rw [hnone.1]
    exact hnone.2
  | _ => exact hnone

/-- A depth stays covered where no depth is taken and the snapshots have the same depths. -/
theorem Covered.of_eq {depth : ℕ} (hcovered : calls.Covered depth)
    (hdepth : next.maxQueueDepth = calls.maxQueueDepth)
    (hsnapshots : next.allSnapshots.map StatSnapshot.maxQueueDepth =
      calls.allSnapshots.map StatSnapshot.maxQueueDepth) : next.Covered depth := by
  refine hcovered.imp (fun hle ↦ hdepth ▸ hle) fun ⟨snap, hmem, hle⟩ ↦ ?_
  have hdepths := List.mem_map_of_mem (f := StatSnapshot.maxQueueDepth) hmem
  rw [← hsnapshots, List.mem_map] at hdepths
  obtain ⟨snap', hmem', heq⟩ := hdepths
  exact ⟨snap', hmem', heq ▸ hle⟩

theorem fresh_exchange {snap : StatSnapshot} {current : TypeSnapshot} {field : StatField}
    {todo : List StatField} {left : List RequestType}
    (hfresh : Fresh (.fields snap current (field :: todo) left)) :
    Fresh (.fields snap (calls.exchange current field).2 todo left) := by
  obtain ⟨hnodup, hzero⟩ := hfresh
  rw [List.nodup_cons] at hnodup
  refine ⟨hnodup.2, fun counter hmem ↦ ?_⟩
  have hcounter := hzero counter (List.mem_cons_of_mem _ hmem)
  cases field with
  | counter counter' =>
    rw [exchange, Counter.read_write_of_ne]
    · exact hcounter
    · rintro rfl
      exact hnodup.1 hmem
  | maxCost =>
    rw [exchange, Counter.read_with_maxCost]
    exact hcounter
  | minCost =>
    rw [exchange, Counter.read_with_minCost]
    exact hcounter

/-- What the threads keep between them. -/
structure Sound (calls : StatCalls) : Prop where
  pending : Pending calls.worker
  inFlight : InFlight calls
  fresh : Fresh calls.consumer
  covered : ∀ depth ∈ calls.sampled, calls.Covered depth

theorem sound_new : Sound {} where
  pending := trivial
  inFlight := ⟨rfl, rfl⟩
  fresh := trivial
  covered _ hmem := absurd hmem List.not_mem_nil

/-- A step of the worker that neither samples nor changes the depth. -/
theorem Sound.of_worker (hsound : calls.Sound) (hconsumer : next.consumer = calls.consumer)
    (hsnapshots : next.snapshots = calls.snapshots)
    (hdepth : next.maxQueueDepth = calls.maxQueueDepth) (hsampled : next.sampled = calls.sampled)
    (hpending : Pending next.worker) (hinFlight : InFlight next) : next.Sound := by
  refine ⟨hpending, hinFlight, hconsumer ▸ hsound.fresh, fun depth hmem ↦ ?_⟩
  refine (hsound.covered depth (hsampled ▸ hmem)).of_eq hdepth ?_
  rw [allSnapshots, allSnapshots, hsnapshots, hconsumer]

/-- A step that completes the sample of a depth, which is covered by the one that is stored. -/
theorem Sound.of_sample (hsound : calls.Sound) {depth : ℕ}
    (hconsumer : next.consumer = calls.consumer) (hsnapshots : next.snapshots = calls.snapshots)
    (hdepth : calls.maxQueueDepth ≤ next.maxQueueDepth)
    (hsampled : next.sampled = calls.sampled ++ [depth]) (hle : depth ≤ next.maxQueueDepth)
    (hpending : Pending next.worker) (hinFlight : InFlight next) : next.Sound := by
  refine ⟨hpending, hinFlight, hconsumer ▸ hsound.fresh, fun other hmem ↦ ?_⟩
  rw [hsampled, List.mem_append, List.mem_singleton] at hmem
  rcases hmem with hold | rfl
  · refine (hsound.covered other hold).imp (fun hother ↦ hother.trans hdepth) fun hsnap ↦ ?_
    rw [allSnapshots, hsnapshots, hconsumer]
    exact hsnap
  · exact Or.inl hle

/-- A step of `consume`, which leaves the worker and what an observer counts. -/
theorem Sound.of_consumer (hsound : calls.Sound) (hworker : next.worker = calls.worker)
    (hcurrent : next.current = calls.current)
    (hcount : next.inflightCount = calls.inflightCount)
    (htimes : next.reqStartTime = calls.reqStartTime) (hstarted : next.started = calls.started)
    (hfinished : next.finished = calls.finished) (hsampled : next.sampled = calls.sampled)
    (hcovered : ∀ depth, calls.Covered depth → next.Covered depth)
    (hfresh : Fresh next.consumer) : next.Sound := by
  refine ⟨hworker ▸ hsound.pending, ?_, hfresh, fun depth hmem ↦ ?_⟩
  · unfold InFlight
    rw [hworker, hcurrent, hcount, htimes, hstarted, hfinished]
    exact hsound.inFlight
  · exact hcovered depth (hsound.covered depth (hsampled ▸ hmem))

/-- A step of `consume` that leaves the stored depth and those of the snapshots. -/
theorem Sound.of_depths (hsound : calls.Sound) (hworker : next.worker = calls.worker)
    (hcurrent : next.current = calls.current)
    (hcount : next.inflightCount = calls.inflightCount)
    (htimes : next.reqStartTime = calls.reqStartTime) (hstarted : next.started = calls.started)
    (hfinished : next.finished = calls.finished) (hsampled : next.sampled = calls.sampled)
    (hdepth : next.maxQueueDepth = calls.maxQueueDepth) (hfresh : Fresh next.consumer)
    (hsnapshots : next.allSnapshots.map StatSnapshot.maxQueueDepth =
      calls.allSnapshots.map StatSnapshot.maxQueueDepth) : next.Sound :=
  hsound.of_consumer hworker hcurrent hcount htimes hstarted hfinished hsampled
    (fun _ hcovered ↦ hcovered.of_eq hdepth hsnapshots) hfresh

theorem Sound.moves {action : StatCallAction} (hsound : calls.Sound)
    (hmoves : Moves calls action next) : next.Sound := by
  have hinFlight := hsound.inFlight
  cases hmoves with
  | start requestType hbetween hnone =>
    have hresting := hinFlight.of_resting (hbetween ▸ trivial)
    rw [RestingInFlight, hnone] at hresting
    exact hsound.of_worker rfl rfl rfl rfl trivial
      ⟨hnone, hresting.1, congrArg (· + 1) hresting.2⟩
  | count requestType spurious hworker =>
    rw [InFlight, hworker] at hinFlight
    obtain ⟨hcurrent, hcount, hstarted⟩ := hinFlight
    refine hsound.of_worker rfl rfl rfl rfl trivial ⟨hcurrent, ?_, hstarted⟩
    show (calls.inflightCount + 1) % 2 ^ 32 = 1
    rw [hcount]
    decide
  | record requestType now hworker =>
    rw [InFlight, hworker] at hinFlight
    obtain ⟨hcurrent, hcount, hstarted⟩ := hinFlight
    refine hsound.of_worker rfl rfl rfl rfl trivial ⟨hcount, hstarted, ?_⟩
    dsimp only
    rw [Function.update_self]
    rfl
  | finishUntimed requestType reqBytes rspBytes hbetween hcurrent hstart =>
    have hresting := hinFlight.of_resting (hbetween ▸ trivial)
    rw [RestingInFlight, hcurrent] at hresting
    have hrecorded := hresting.2.2
    rw [hstart] at hrecorded
    cases hrecorded
  | finish requestType reqBytes rspBytes start hbetween hcurrent =>
    have hresting := hinFlight.of_resting (hbetween ▸ trivial)
    rw [RestingInFlight, hcurrent] at hresting
    exact hsound.of_worker rfl rfl rfl rfl trivial ⟨rfl, hresting.1, hresting.2.1⟩
  | uncount requestType reqBytes rspBytes start spurious hworker =>
    rw [InFlight, hworker] at hinFlight
    obtain ⟨hcurrent, hcount, hstarted⟩ := hinFlight
    refine hsound.of_worker rfl rfl rfl rfl trivial ⟨hcurrent, ?_, hstarted⟩
    show (calls.inflightCount + (2 ^ 32 - 1)) % 2 ^ 32 = 0
    rw [hcount]
    decide
  | add requestType costMs counter amount todo spurious hworker =>
    have hnone := hinFlight.of_closing (hworker ▸ trivial)
    have hpending := hsound.pending
    have hsettled := settled_afterAdding requestType costMs
    rw [hworker, Pending, List.forall_mem_cons] at hpending
    refine hsound.of_worker rfl rfl rfl rfl ?_ (NoneInFlight.inFlight hnone ?_)
    · dsimp only
      split
      · exact hsettled.1
      · exact hpending.2
    · dsimp only
      split
      · exact hsettled.2
      · trivial
  | goOn _ found created worker hclosing hpending houtside hread =>
    exact hsound.of_worker rfl rfl rfl rfl hpending
      (NoneInFlight.inFlight (hinFlight.of_closing hclosing) houtside)
  | sample depth hbetween =>
    have hresting := hinFlight.of_resting (hbetween ▸ trivial)
    exact hsound.of_worker rfl rfl rfl rfl trivial (RestingInFlight.inFlight hresting trivial)
  | aim depth spurious hresting hlt =>
    have hresting := hinFlight.of_resting hresting
    exact hsound.of_worker rfl rfl rfl rfl hlt (RestingInFlight.inFlight hresting trivial)
  | sampled depth spurious hresting hle =>
    have hresting := hinFlight.of_resting hresting
    exact hsound.of_sample rfl rfl le_rfl rfl hle trivial
      (RestingInFlight.inFlight hresting trivial)
  | raise depth spurious hworker =>
    have hresting := hinFlight.of_resting (hworker ▸ trivial)
    have hraised := hsound.pending
    rw [hworker] at hraised
    exact hsound.of_sample rfl rfl (Nat.le_of_lt hraised) rfl le_rfl trivial
      (RestingInFlight.inFlight hresting trivial)
  | consume hidle =>
    refine hsound.of_depths rfl rfl rfl rfl rfl rfl rfl rfl trivial ?_
    rw [allSnapshots, allSnapshots, hidle, making, making]
  | takeDepth inflightCount hconsumer =>
    refine hsound.of_consumer rfl rfl rfl rfl rfl rfl rfl (fun depth hcovered ↦ Or.inr ?_) trivial
    -- The depth that was stored is now that of the snapshot.
    rcases hcovered with hle | ⟨snap, hmem, hle⟩
    · exact ⟨_, List.mem_append_right _ (List.mem_singleton_self _), hle⟩
    · rw [allSnapshots, hconsumer, making, List.append_nil] at hmem
      exact ⟨snap, List.mem_append_left _ hmem, hle⟩
  | lock snap order hconsumer =>
    refine hsound.of_depths rfl rfl rfl rfl rfl rfl rfl rfl trivial ?_
    rw [allSnapshots, allSnapshots, hconsumer, making, making]
  | enterType snap requestType left hconsumer =>
    refine hsound.of_depths rfl rfl rfl rfl rfl rfl rfl rfl
      ⟨nodup_all, fun counter _ ↦ Counter.read_new counter⟩ ?_
    rw [allSnapshots, allSnapshots, hconsumer, making, making, List.map_append, List.map_append]
    rfl
  | exchange snap current field todo left hconsumer =>
    have hfresh := hsound.fresh
    rw [hconsumer] at hfresh
    cases field <;>
      refine hsound.of_depths rfl rfl rfl rfl rfl rfl rfl rfl (fresh_exchange hfresh) ?_ <;>
      rw [allSnapshots, allSnapshots, hconsumer, making, making, List.map_append,
        List.map_append] <;>
      rfl
  | leaveType snap current left hconsumer =>
    refine hsound.of_depths rfl rfl rfl rfl rfl rfl rfl rfl trivial ?_
    rw [allSnapshots, allSnapshots, hconsumer, making, making]
  | release snap hconsumer =>
    refine hsound.of_depths rfl rfl rfl rfl rfl rfl rfl rfl trivial ?_
    rw [allSnapshots, allSnapshots, hconsumer, making, making, List.append_nil]

theorem Sound.step {action : StatCallAction} (hsound : calls.Sound)
    (hstep : calls.step action = some next) : next.Sound :=
  hsound.moves (step_moves hstep)

end Threads

/-! ### Conservation -/

section Conservation

variable {calls next : StatCalls}

/-- The amounts added to a counter, with one more addition. -/
theorem addedTo_concat {requestType : RequestType} {counter : Counter} {amount : ℤ}
    (hadded : next.added = calls.added ++ [(requestType, counter, amount)])
    (requestType' : RequestType) (counter' : Counter) :
    next.addedTo requestType' counter' = calls.addedTo requestType' counter' ++
      if (requestType', counter') = (requestType, counter) then [amount] else [] := by
  rw [addedTo, hadded, List.filterMap_append, ← addedTo]
  congr 1
  by_cases hsame : (requestType', counter') = (requestType, counter)
  · cases hsame
    simp
  · have hnot : ¬ (requestType = requestType' ∧ counter = counter') :=
      fun h ↦ hsame (by rw [h.1, h.2])
    simp [hsame, hnot]

theorem addedTo_congr (hadded : next.added = calls.added) : next.addedTo = calls.addedTo := by
  unfold addedTo
  rw [hadded]

/-- The effect of a step on one counter. -/
theorem Effect.on {action : StatCallAction} (heffect : Effect calls action next)
    (requestType : RequestType) (counter : Counter) :
    (next.taken requestType counter = calls.taken requestType counter ∧
        next.stored requestType counter = calls.stored requestType counter ∧
        next.addedTo requestType counter = calls.addedTo requestType counter) ∨
      (∃ cost amount todo, (∃ spurious, action = .worker spurious) ∧
        calls.worker = .adding requestType cost ((counter, amount) :: todo) ∧
        next.taken requestType counter = calls.taken requestType counter ∧
        next.stored requestType counter =
          wrapAdd counter.bits (calls.stored requestType counter) amount ∧
        next.addedTo requestType counter = calls.addedTo requestType counter ++ [amount]) ∨
      (next.taken requestType counter =
          calls.taken requestType counter + calls.stored requestType counter ∧
        next.stored requestType counter = 0 ∧
        next.addedTo requestType counter = calls.addedTo requestType counter) := by
  cases heffect with
  | still hstored hadded htaken =>
    rw [hstored, htaken, addedTo_congr hadded]
    exact Or.inl ⟨rfl, rfl, rfl⟩
  | add requestType' cost counter' amount todo haction hworker hstored hother hadded htaken =>
    rw [htaken, addedTo_concat hadded]
    by_cases hsame : (requestType, counter) = (requestType', counter')
    · cases hsame
      rw [if_pos rfl]
      exact Or.inr (Or.inl ⟨cost, amount, todo, haction, hworker, rfl, hstored, rfl⟩)
    · rw [if_neg hsame, hother _ _ hsame, List.append_nil]
      exact Or.inl ⟨rfl, rfl, rfl⟩
  | exchange requestType' counter' hstored htaken hother hadded =>
    rw [addedTo_congr hadded]
    by_cases hsame : (requestType, counter) = (requestType', counter')
    · cases hsame
      exact Or.inr (Or.inr ⟨htaken, hstored, rfl⟩)
    · obtain ⟨hstored', htaken'⟩ := hother _ _ hsame
      exact Or.inl ⟨htaken', hstored', rfl⟩

theorem Conserved.step {action : StatCallAction} (hsound : calls.Sound)
    (hconserved : calls.Conserved) (hstep : calls.step action = some next) : next.Conserved := by
  have hsound' := hsound.step hstep
  have heffect := effect_step hsound.fresh hstep
  refine ⟨fun requestType counter ↦ ?_, fun requestType counter hones ↦ ?_, hsound'.covered,
    fun hbetween ↦ ?_⟩
  · have hbefore := hconserved.drained requestType counter
    rcases heffect.on requestType counter with ⟨htaken, hstored, hadded⟩ |
      ⟨cost, amount, todo, haction, hworker, htaken, hstored, hadded⟩ | ⟨htaken, hstored, hadded⟩
    · rw [htaken, hstored, hadded]
      exact hbefore
    · rw [htaken, hstored, hadded, List.sum_append, List.sum_singleton]
      exact hbefore.add amount
    · rw [htaken, hstored, hadded]
      exact hbefore.exchange
  · have hbefore := hconserved.ofOnes requestType counter hones
    rcases heffect.on requestType counter with ⟨htaken, hstored, hadded⟩ |
      ⟨cost, amount, todo, haction, hworker, htaken, hstored, hadded⟩ | ⟨htaken, hstored, hadded⟩
    · rw [hadded]
      exact hbefore
    · have hpending := hsound.pending
      rw [hworker, Pending, List.forall_mem_cons] at hpending
      have hone : amount = 1 := hpending.1.2 hones
      rw [hadded, List.sum_append, List.sum_singleton, hbefore, hone, List.length_append,
        List.length_singleton, Nat.cast_succ]
    · rw [hadded]
      exact hbefore
  · have hinFlight := hsound'.inFlight
    rw [InFlight, hbetween] at hinFlight
    dsimp only at hinFlight
    split at hinFlight <;> omega

/-- What the exact sums need to be kept by a step. -/
def Exact (calls : StatCalls) : Prop :=
  ∀ requestType counter, DrainedExactly (calls.taken requestType counter)
    (calls.stored requestType counter) (calls.addedTo requestType counter).sum

/-- A step that adds to no counter past its largest value keeps the sums exact. -/
theorem Exact.step {action : StatCallAction} (hsound : calls.Sound) (hexact : calls.Exact)
    (hfits : calls.AddsFit action) (hstep : calls.step action = some next) : next.Exact := by
  intro requestType counter
  have hbefore := hexact requestType counter
  rcases (effect_step hsound.fresh hstep).on requestType counter with ⟨htaken, hstored, hadded⟩ |
    ⟨cost, amount, todo, ⟨spurious, haction⟩, hworker, htaken, hstored, hadded⟩ |
    ⟨htaken, hstored, hadded⟩
  · rw [htaken, hstored, hadded]
    exact hbefore
  · have hpending := hsound.pending
    rw [hworker, Pending, List.forall_mem_cons] at hpending
    rw [haction, AddsFit, hworker] at hfits
    rw [htaken, hstored, hadded, List.sum_append, List.sum_singleton]
    exact hbefore.add counter.bits_pos hpending.1.1 hfits
  · rw [htaken, hstored, hadded]
    exact hbefore.exchange

theorem stored_new (requestType : RequestType) (counter : Counter) :
    ({} : StatCalls).stored requestType counter = 0 := Counter.read_new counter

theorem conserved_new : Conserved {} where
  drained requestType counter := by
    rw [stored_new]
    rfl
  ofOnes _ _ _ := rfl
  covered := sound_new.covered
  inflight _ := rfl

theorem exact_new : Exact {} := by
  intro requestType counter
  rw [stored_new]
  exact ⟨le_rfl, rfl⟩

/-- Assumes: a run of the threads from the start. In the state it reaches nothing is lost or counted
twice, modulo the sizes of the counters, no depth that was sampled is lost, and what is in flight is
what was started and not finished. Where no addition passes the largest value of its counter, the
sums are exact. -/
theorem conserved_of_run {actions : List StatCallAction} {calls : StatCalls}
    (hrun : runFrom step {} actions = some calls) :
    calls.Conserved ∧ (Along step AddsFit {} actions → calls.ConservedExactly) := by
  refine ⟨?_, fun hfits ↦ ?_⟩
  · have hboth := runFrom_invariant (fun calls ↦ calls.Sound ∧ calls.Conserved)
      (fun state action next hstate hstep ↦
        ⟨hstate.1.step hstep, hstate.2.step hstate.1 hstep⟩)
      ⟨sound_new, conserved_new⟩ hrun
    exact hboth.2
  · have hboth := runFrom_invariant_along (fun calls ↦ calls.Sound ∧ calls.Exact)
      (fun state action next hstate hfits hstep ↦
        ⟨hstate.1.step hstep, hstate.2.step hstate.1 hfits hstep⟩)
      ⟨sound_new, exact_new⟩ hfits hrun
    exact fun requestType counter ↦ (hboth.2 requestType counter).eq

/-- A request is finished and another one started, with a sample of the depth and a snapshot in
between: the snapshot is made after the first addition of the first request. -/
def splitRequest : List StatCallAction :=
  [.onReqStart 7, .worker false, .clock 100, .sampleQueueDepth 3, .worker false, .worker false,
    .onReqFinish 10 20, .worker false, .clock 105, .worker false, .worker false, .consume,
    .consumer, .lock [7], .consumer] ++ List.replicate 23 .consumer ++
    List.replicate 9 (.worker false) ++ [.onReqStart 7, .worker false, .clock 110]

theorem conserved_splitRequest :
    ∃ calls, runFrom step {} splitRequest = some calls ∧ calls.Conserved ∧
      calls.ConservedExactly := by
  obtain ⟨calls, hrun⟩ := Option.isSome_iff_exists.mp
    (by decide : (runFrom step {} splitRequest).isSome)
  have hconserved := conserved_of_run hrun
  exact ⟨calls, hrun, hconserved.1, hconserved.2 (by decide)⟩

end Conservation

/-! ### A worker that is not interrupted -/

section Alone

variable {calls next : StatCalls}

/-- The metrics after the call for a request. -/
def finishedWith (found : PerTypeMetrics) (reqBytes rspBytes : BitVec 32) (costMs : ℤ) :
    PerTypeMetrics where
  latencyHist := found.latencyHist.observe costMs
  totalCount := addInt32 found.totalCount 1
  totalReqBytes := addInt64 found.totalReqBytes reqBytes.toNat
  totalRspBytes := addInt64 found.totalRspBytes rspBytes.toNat

/-- The additions, one after the other. -/
def addAll (found : PerTypeMetrics) (todo : List (Counter × ℤ)) : PerTypeMetrics :=
  todo.foldl (fun found addition ↦ addition.1.fetchAdd found addition.2) found

theorem addAll_additions (found : PerTypeMetrics) (reqBytes rspBytes : BitVec 32) (costMs : ℤ) :
    addAll found (additions reqBytes rspBytes costMs) =
      if costMs < 0 then finishedWith found reqBytes rspBytes costMs
      else
        { finishedWith found reqBytes rspBytes costMs with
          latencyHist :=
            { found.latencyHist.observe costMs with
              maxCost := found.latencyHist.maxCost, minCost := found.latencyHist.minCost } } := by
  unfold addAll additions finishedWith Histogram.observe
  split_ifs <;> rfl

/-- A run of the worker has left a type with these metrics and made these additions. -/
structure Wrote (calls next : StatCalls) (requestType : RequestType) (found : PerTypeMetrics)
    (new : List (RequestType × Counter × ℤ)) : Prop where
  run : ∃ actions, runFrom step calls actions = some next
  metrics : next.metrics = Function.update calls.metrics requestType found
  added : next.added = calls.added ++ new
  current : next.current = calls.current
  consumer : next.consumer = calls.consumer
  snapshots : next.snapshots = calls.snapshots

variable {requestType : RequestType} {costMs : ℤ}

theorem Wrote.trans {middle : StatCalls} {found found' : PerTypeMetrics}
    {new new' : List (RequestType × Counter × ℤ)}
    (hfirst : Wrote calls middle requestType found new)
    (hsecond : Wrote middle next requestType found' new') :
    Wrote calls next requestType found' (new ++ new') := by
  obtain ⟨first, hfirstRun⟩ := hfirst.run
  obtain ⟨second, hsecondRun⟩ := hsecond.run
  refine ⟨⟨first ++ second, ?_⟩, ?_, ?_, hsecond.current.trans hfirst.current,
    hsecond.consumer.trans hfirst.consumer, hsecond.snapshots.trans hfirst.snapshots⟩
  · rw [runFrom_append, hfirstRun, Option.bind_some, hsecondRun]
  · rw [hsecond.metrics, hfirst.metrics, Function.update_idem]
  · rw [hsecond.added, hfirst.added, List.append_assoc]

theorem Wrote.metrics_self {found : PerTypeMetrics} {new : List (RequestType × Counter × ℤ)}
    (hwrote : Wrote calls next requestType found new) : next.metrics requestType = found := by
  rw [hwrote.metrics, Function.update_self]

/-- A step that changes the metrics of one type. -/
theorem Wrote.of_step {action : StatCallAction} {found : PerTypeMetrics}
    {new : List (RequestType × Counter × ℤ)} (hstep : calls.step action = some next)
    (hmetrics : next.metrics = Function.update calls.metrics requestType found)
    (hadded : next.added = calls.added ++ new) (hcurrent : next.current = calls.current)
    (hconsumer : next.consumer = calls.consumer) (hsnapshots : next.snapshots = calls.snapshots) :
    Wrote calls next requestType found new :=
  ⟨⟨[action], runFrom_cons_of_step hstep []⟩, hmetrics, hadded, hcurrent, hconsumer, hsnapshots⟩

/-- A step that changes no metrics. -/
theorem Wrote.of_step_of_eq {action : StatCallAction} (requestType : RequestType)
    (hstep : calls.step action = some next) (hmetrics : next.metrics = calls.metrics)
    (hadded : next.added = calls.added) (hcurrent : next.current = calls.current)
    (hconsumer : next.consumer = calls.consumer) (hsnapshots : next.snapshots = calls.snapshots) :
    Wrote calls next requestType (calls.metrics requestType) [] := by
  refine .of_step hstep ?_ ?_ hcurrent hconsumer hsnapshots
  · rw [hmetrics, Function.update_eq_self]
  · rw [hadded, List.append_nil]

/-- The additions are made. -/
theorem exists_wrote_adding {todo : List (Counter × ℤ)} (hne : todo ≠ [])
    (hworker : calls.worker = .adding requestType costMs todo) :
    ∃ next, Wrote calls next requestType (addAll (calls.metrics requestType) todo)
      (todo.map fun addition ↦ (requestType, addition)) ∧
        next.worker = afterAdding requestType costMs := by
  induction todo generalizing calls with
  | nil => exact absurd rfl hne
  | cons addition todo ih =>
    obtain ⟨next, hstep⟩ : ∃ next, step calls (.worker false) = some next := by
      rw [step, workerStep, hworker]
      exact ⟨_, rfl⟩
    have hnext := hstep
    rw [step, workerStep, hworker] at hnext
    have hwrote : Wrote calls next requestType
        (addition.1.fetchAdd (calls.metrics requestType) addition.2) [(requestType, addition)] := by
      refine .of_step hstep ?_ ?_ ?_ ?_ ?_ <;> cases hnext <;> rfl
    have hthen : next.worker = if todo = [] then afterAdding requestType costMs
        else .adding requestType costMs todo := by
      cases hnext
      rfl
    by_cases hlast : todo = []
    · subst hlast
      exact ⟨next, hwrote, hthen⟩
    · obtain ⟨last, hrest, hworker'⟩ := ih hlast (hthen.trans (if_neg hlast))
      rw [hwrote.metrics_self] at hrest
      exact ⟨last, hwrote.trans hrest, hworker'⟩

/-- The largest cost is raised. -/
theorem exists_wrote_maxLoad (hworker : calls.worker = .maxLoad requestType costMs) :
    ∃ next, Wrote calls next requestType
      { calls.metrics requestType with
        latencyHist := { (calls.metrics requestType).latencyHist with
          maxCost := if costMs > (calls.metrics requestType).latencyHist.maxCost then costMs
            else (calls.metrics requestType).latencyHist.maxCost } } [] ∧
      next.worker = .minLoad requestType costMs := by
  have hload : step calls (.worker false) = some { calls with
      worker := afterMax requestType costMs
        (calls.metrics requestType).latencyHist.maxCost } := by
    rw [step, workerStep, hworker]
  have hloaded := Wrote.of_step_of_eq requestType hload rfl rfl rfl rfl rfl
  by_cases hlt : costMs > (calls.metrics requestType).latencyHist.maxCost
  · rw [if_pos hlt]
    rw [afterMax, if_pos hlt] at hloaded
    have hswap : step { calls with
        worker := .maxSwap requestType costMs (calls.metrics requestType).latencyHist.maxCost }
          (.worker false) = some { calls.setMaxCost requestType costMs with
            worker := .minLoad requestType costMs } := by
      simp only [step, workerStep, and_self, if_true]
      rfl
    exact ⟨_, hloaded.trans (.of_step hswap rfl (List.append_nil _).symm rfl rfl rfl), rfl⟩
  · rw [if_neg hlt]
    rw [afterMax, if_neg hlt] at hloaded
    exact ⟨_, hloaded, rfl⟩

/-- The smallest cost is lowered. -/
theorem exists_wrote_minLoad (hworker : calls.worker = .minLoad requestType costMs) :
    ∃ next, Wrote calls next requestType
      { calls.metrics requestType with
        latencyHist := { (calls.metrics requestType).latencyHist with
          minCost := if costMs < (calls.metrics requestType).latencyHist.minCost then costMs
            else (calls.metrics requestType).latencyHist.minCost } } [] ∧
      next.worker = .between := by
  have hload : step calls (.worker false) = some { calls with
      worker := afterMin requestType costMs
        (calls.metrics requestType).latencyHist.minCost } := by
    rw [step, workerStep, hworker]
  have hloaded := Wrote.of_step_of_eq requestType hload rfl rfl rfl rfl rfl
  by_cases hlt : costMs < (calls.metrics requestType).latencyHist.minCost
  · rw [if_pos hlt]
    rw [afterMin, if_pos hlt] at hloaded
    have hswap : step { calls with
        worker := .minSwap requestType costMs (calls.metrics requestType).latencyHist.minCost }
          (.worker false) = some { calls.setMinCost requestType costMs with
            worker := .between } := by
      simp only [step, workerStep, and_self, if_true]
      rfl
    exact ⟨_, hloaded.trans (.of_step hswap rfl (List.append_nil _).symm rfl rfl rfl), rfl⟩
  · rw [if_neg hlt]
    rw [afterMin, if_neg hlt] at hloaded
    exact ⟨_, hloaded, rfl⟩

/-- Assumes: the worker is about to look for the metrics of a request, and the lock is free. A run
of its steps alone does what the calls of `fetch_add` and `observe` do one after the other. -/
theorem exists_wrote_metrics {reqBytes rspBytes : BitVec 32}
    (hworker : calls.worker = .metrics requestType reqBytes rspBytes costMs)
    (hunlocked : calls.locked = false) :
    ∃ next, Wrote calls next requestType
        (finishedWith (calls.metrics requestType) reqBytes rspBytes costMs)
        ((additions reqBytes rspBytes costMs).map fun addition ↦ (requestType, addition)) ∧
      next.worker = .between := by
  have hne : additions reqBytes rspBytes costMs ≠ [] := List.cons_ne_nil _ _
  obtain ⟨found, hfound⟩ : ∃ found, step calls (.worker false) = some found := by
    simp only [step, workerStep, hworker, hunlocked, Bool.false_eq_true, if_false]
    exact ⟨_, rfl⟩
  have hnext := hfound
  simp only [step, workerStep, hworker, hunlocked, Bool.false_eq_true, if_false] at hnext
  have hfoundWrote : Wrote calls found requestType (calls.metrics requestType) [] := by
    refine .of_step_of_eq requestType hfound ?_ ?_ ?_ ?_ ?_ <;> cases hnext <;> rfl
  have hadding : found.worker =
      .adding requestType costMs (additions reqBytes rspBytes costMs) := by
    cases hnext
    rfl
  obtain ⟨added, haddedWrote, hadded⟩ := exists_wrote_adding hne hadding
  have hwrote := hfoundWrote.trans haddedWrote
  rw [hfoundWrote.metrics_self, addAll_additions, List.nil_append] at hwrote
  by_cases hneg : costMs < 0
  · rw [if_pos hneg] at hwrote
    rw [afterAdding, if_pos hneg] at hadded
    exact ⟨added, hwrote, hadded⟩
  · rw [if_neg hneg] at hwrote
    rw [afterAdding, if_neg hneg] at hadded
    obtain ⟨raised, hraisedWrote, hraised⟩ := exists_wrote_maxLoad hadded
    obtain ⟨lowered, hloweredWrote, hlowered⟩ := exists_wrote_minLoad hraised
    have hall := hwrote.trans (hraisedWrote.trans hloweredWrote)
    rw [hraisedWrote.metrics_self, hwrote.metrics_self, List.append_nil, List.append_nil] at hall
    refine ⟨lowered, ?_, hlowered⟩
    rw [finishedWith, Histogram.observe, if_neg hneg]
    rw [finishedWith, Histogram.observe, if_neg hneg] at hall
    exact hall

/-- Assumes: the worker is between two requests, the lock is free, and the clock can be read. A run
of the steps of the worker alone serves a request. -/
theorem exists_wrote_request (requestType : RequestType) (reqBytes rspBytes : BitVec 32)
    {start now : ℤ} (hbetween : calls.worker = .between) (hcurrent : calls.current = none)
    (hunlocked : calls.locked = false) (hstart : start ≠ timeStampErr)
    (hnow : now ≠ timeStampErr) :
    ∃ next, Wrote calls next requestType
        (finishedWith (calls.metrics requestType) reqBytes rspBytes ((now - start).bmod (2 ^ 32)))
        ((additions reqBytes rspBytes ((now - start).bmod (2 ^ 32))).map
          fun addition ↦ (requestType, addition)) ∧
      next.worker = .between := by
  obtain ⟨timed, htimed, hmetrics, hadded, hcurrent', hconsumer, hsnapshots, hworker⟩ :
      ∃ timed, runFrom step calls [.onReqStart requestType, .worker false, .clock start,
          .onReqFinish reqBytes rspBytes, .worker false, .clock now] = some timed ∧
        timed.metrics = calls.metrics ∧ timed.added = calls.added ∧ timed.current = none ∧
        timed.consumer = calls.consumer ∧ timed.snapshots = calls.snapshots ∧
        timed.worker = .metrics requestType reqBytes rspBytes ((now - start).bmod (2 ^ 32)) := by
    simp only [runFrom_cons, runFrom_nil, step, workerStep, clockStep, hbetween, hcurrent, and_self,
      if_true, Option.bind_some, Function.update_self, hstart, hnow, or_self, if_false]
    exact ⟨_, rfl, rfl, rfl, rfl, rfl, rfl, rfl⟩
  have htimedWrote : Wrote calls timed requestType (calls.metrics requestType) [] := by
    refine ⟨⟨_, htimed⟩, ?_, ?_, hcurrent'.trans hcurrent.symm, hconsumer, hsnapshots⟩
    · rw [hmetrics, Function.update_eq_self]
    · rw [hadded, List.append_nil]
  have hunlocked' : timed.locked = false := by
    rw [locked, hconsumer]
    exact hunlocked
  obtain ⟨next, hwrote, hnext⟩ := exists_wrote_metrics hworker hunlocked'
  rw [htimedWrote.metrics_self] at hwrote
  exact ⟨next, htimedWrote.trans hwrote, hnext⟩

/-- Requests of one type are served before any snapshot: their number is stored as an `int`. -/
theorem exists_run_requests (number : ℕ) :
    ∃ actions calls, runFrom step {} actions = some calls ∧ calls.worker = .between ∧
      calls.current = none ∧ calls.consumer = .idle ∧ calls.snapshots = [] ∧
      calls.stored 0 .totalCount = (number : ℤ).bmod (2 ^ 32) ∧
      (calls.addedTo 0 .totalCount).sum = number := by
  induction number with
  | zero => exact ⟨[], {}, rfl, rfl, rfl, rfl, rfl, rfl, rfl⟩
  | succ number ih =>
    obtain ⟨before, calls, hrun, hbetween, hcurrent, hconsumer, hsnapshots, hstored, hadded⟩ := ih
    have hunlocked : calls.locked = false := by rw [locked, hconsumer]
    obtain ⟨next, hwrote, hnext⟩ := exists_wrote_request 0 0 0 hbetween hcurrent hunlocked
      (by decide : (1 : ℤ) ≠ timeStampErr) (by decide : (1 : ℤ) ≠ timeStampErr)
    obtain ⟨actions, hactions⟩ := hwrote.run
    refine ⟨before ++ actions, next, ?_, hnext, hwrote.current.trans hcurrent,
      hwrote.consumer.trans hconsumer, hwrote.snapshots.trans hsnapshots, ?_, ?_⟩
    · rw [runFrom_append, hrun, Option.bind_some, hactions]
    · have hcount : next.stored 0 .totalCount = wrapAdd 32 (calls.stored 0 .totalCount) 1 := by
        rw [stored, hwrote.metrics_self]
        rfl
      rw [hcount, hstored, wrapAdd, Int.bmod_add_bmod, Nat.cast_succ]
    · rw [addedTo, hwrote.added, List.filterMap_append, List.sum_append, ← addedTo, hadded]
      rfl

/-- After `2 ^ 31` requests without a snapshot the counter has wrapped around. -/
theorem not_conservedExactly :
    ¬ ∀ actions calls, runFrom step {} actions = some calls → calls.ConservedExactly := by
  intro hall
  obtain ⟨actions, calls, hrun, -, -, hconsumer, hsnapshots, hstored, hadded⟩ :=
    exists_run_requests (2 ^ 31)
  have hexact := hall actions calls hrun 0 .totalCount
  have htaken : calls.taken 0 .totalCount = 0 := by
    rw [taken, allSnapshots, hsnapshots, hconsumer]
    rfl
  rw [htaken, hstored, hadded] at hexact
  exact absurd hexact (by decide)

end Alone

end StatCalls

end TszyUlt.Zbf
