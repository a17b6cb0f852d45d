import Mathlib.Data.List.Infix

/-!
# Self-delimiting frames in a stream

A frame is a header of fixed length followed by a body whose length the header announces. A reader
that keeps the unread part of a stream in a buffer cuts frames off the front of the buffer
(`FrameFormat.next`) until the buffer holds no complete frame; a header that announces a body above
the limit makes it give the whole buffer up.

The loop that drains a source until it returns nothing is `drainWith`, for any source;
`drainWith_sim` carries it from one source to another that simulates it.

`drain_flatten_append` is the exactness of one drain: a buffer of complete frames followed by
something that is not yet one is drained to exactly these frames. `exists_split_of_prefix_flatten`
cuts a prefix of a concatenation of frames at its last complete frame, and `drain_chunk` puts the
two together into the step of a reader that receives the stream in chunks: whatever the chunk
boundaries are, a drain returns the frames completed by the chunk and leaves a proper prefix of the
next one (`Pending`).

`framesOf` is what a reader cuts off a whole stream, whatever the stream is; `framesOf_spec` says
that these are frames and that what remains does not begin with another one. `drain_spec` is one
drain of any buffer: it leaves what remains (`restOf`), or nothing where a header announces too
large a body (`Violated`).
-/

set_option autoImplicit false
set_option relaxedAutoImplicit false

namespace TszyUlt.Lib

variable {α β γ σ τ : Type*}

/-! ### Draining a source -/

/-- Calling a source until it returns nothing, at most `fuel` times: what it returned and the state
it is left in, or nothing when the calls did not suffice. -/
def drainWith (pop : σ → Option β × σ) : ℕ → σ → Option (List β × σ)
  | 0, _ => none
  | fuel + 1, state =>
    match pop state with
    | (none, rest) => some ([], rest)
    | (some item, rest) => (drainWith pop fuel rest).map fun result ↦ (item :: result.1, result.2)

theorem drainWith_of_none {pop : σ → Option β × σ} {state rest : σ}
    (hpop : pop state = (none, rest)) (fuel : ℕ) :
    drainWith pop (fuel + 1) state = some ([], rest) := by
  rw [drainWith, hpop]

theorem drainWith_of_some {pop : σ → Option β × σ} {state rest : σ} {item : β}
    (hpop : pop state = (some item, rest)) (fuel : ℕ) :
    drainWith pop (fuel + 1) state =
      (drainWith pop fuel rest).map fun result ↦ (item :: result.1, result.2) := by
  rw [drainWith, hpop]

/-- Assumes: two sources whose calls return corresponding items and keep a relation between their
states. A drain of the second is matched by a drain of the first. -/
theorem drainWith_sim {pop : σ → Option β × σ} {spec : τ → Option γ × τ} (related : σ → τ → Prop)
    (image : β → γ)
    (hstep : ∀ state model, related state model →
      (pop state).1.map image = (spec model).1 ∧ related (pop state).2 (spec model).2)
    (fuel : ℕ) {state : σ} {model : τ} (hrelated : related state model) {results : List γ}
    {last : τ} (hdrain : drainWith spec fuel model = some (results, last)) :
    ∃ items final, drainWith pop fuel state = some (items, final) ∧ items.map image = results ∧
      related final last := by
  induction fuel generalizing state model results with
  | zero => cases hdrain
  | succ fuel ih =>
    obtain ⟨hitem, hnext⟩ := hstep state model hrelated
    rcases hpop : pop state with ⟨_ | item, rest⟩
    · rcases hspec : spec model with ⟨_ | result, modelRest⟩
      · rw [drainWith_of_none hspec] at hdrain
        cases hdrain
        rw [hpop, hspec] at hnext
        exact ⟨[], rest, drainWith_of_none hpop fuel, rfl, hnext⟩
      · rw [hpop, hspec] at hitem
        cases hitem
    · rcases hspec : spec model with ⟨_ | result, modelRest⟩
      · rw [hpop, hspec] at hitem
        cases hitem
      · rw [hpop, hspec] at hitem hnext
        cases hitem
        rw [drainWith_of_some hspec, Option.map_eq_some_iff] at hdrain
        obtain ⟨⟨tail, modelLast⟩, htail, heq⟩ := hdrain
        cases heq
        obtain ⟨items, final, hitems, rfl, hfinal⟩ := ih hnext htail
        refine ⟨item :: items, final, ?_, rfl, hfinal⟩
        rw [drainWith_of_some hpop, hitems]
        rfl

/-- More attempts than suffice do not matter. -/
theorem drainWith_mono {pop : σ → Option β × σ} {fuel fuel' : ℕ} {state : σ} {result : List β × σ}
    (hle : fuel ≤ fuel') (hdrain : drainWith pop fuel state = some result) :
    drainWith pop fuel' state = some result := by
  induction fuel generalizing fuel' state result with
  | zero => cases hdrain
  | succ fuel ih =>
    obtain ⟨fuel', rfl⟩ : ∃ n, fuel' = n + 1 := ⟨fuel' - 1, by omega⟩
    rcases hpop : pop state with ⟨_ | item, rest⟩
    · rw [drainWith_of_none hpop] at hdrain ⊢
      exact hdrain
    · rw [drainWith_of_some hpop, Option.map_eq_some_iff] at hdrain
      obtain ⟨tail, htail, rfl⟩ := hdrain
      rw [drainWith_of_some hpop, ih (by omega) htail]
      rfl

/-- A format of frames: the length of a header, the length of the body it announces, and the
largest body a reader accepts. -/
structure FrameFormat (α : Type*) where
  headerSize : ℕ
  headerSize_pos : 0 < headerSize
  bodySize : List α → ℕ
  maxBodySize : ℕ

namespace FrameFormat

variable (format : FrameFormat α)

/-- The length of the frame at the front of a buffer that holds its header. -/
def totalSize (buffer : List α) : ℕ :=
  format.headerSize + format.bodySize (buffer.take format.headerSize)

/-- One attempt to cut a frame off the front of a buffer: the frame, if one is complete, and the
buffer that remains. -/
def next (buffer : List α) : Option (List α) × List α :=
  if buffer.length < format.headerSize then (none, buffer)
  else if format.maxBodySize < format.bodySize (buffer.take format.headerSize) then (none, [])
  else if format.totalSize buffer ≤ buffer.length then
    (some (buffer.take (format.totalSize buffer)), buffer.drop (format.totalSize buffer))
  else (none, buffer)

/-- A frame of the format: a header and exactly the body it announces, within the limit. -/
structure IsFrame (frame : List α) : Prop where
  header_le : format.headerSize ≤ frame.length
  body_le : format.bodySize (frame.take format.headerSize) ≤ format.maxBodySize
  length_eq : frame.length = format.totalSize frame

end FrameFormat

/-- What a reader may hold of the frames still to come: a proper prefix of the first of them, or
nothing when there is none. -/
def Pending : List (List α) → List α → Prop
  | [], held => held = []
  | frame :: _, held => held <+: frame ∧ held.length < frame.length

/-! ### Cutting a prefix of a concatenation -/

/-- A prefix of a concatenation of frames is some of the frames followed by a proper prefix of the
next one. -/
theorem exists_split_of_prefix_flatten (frames : List (List α)) (received : List α)
    (hinitial : received <+: frames.flatten) :
    ∃ count ≤ frames.length, ∃ held, received = (frames.take count).flatten ++ held ∧
      Pending (frames.drop count) held := by
  induction frames generalizing received with
  | nil => exact ⟨0, le_rfl, received, rfl, List.prefix_nil.mp hinitial⟩
  | cons frame frames ih =>
    rw [List.flatten_cons] at hinitial
    by_cases hshort : received.length < frame.length
    · refine ⟨0, Nat.zero_le _, received, rfl, ?_, hshort⟩
      exact List.prefix_of_prefix_length_le hinitial (List.prefix_append _ _) hshort.le
    · have hframe : frame <+: received :=
        List.prefix_of_prefix_length_le (List.prefix_append _ _) hinitial (not_lt.mp hshort)
      obtain ⟨later, rfl⟩ := hframe
      obtain ⟨count, hcount, held, rfl, hheld⟩ :=
        ih later ((List.prefix_append_right_inj frame).mp hinitial)
      refine ⟨count + 1, Nat.succ_le_succ hcount, held, ?_, hheld⟩
      rw [List.take_succ_cons, List.flatten_cons, List.append_assoc]

namespace FrameFormat

variable {format : FrameFormat α}

/-! ### One attempt -/

theorem take_headerSize_append {frame : List α} (hframe : format.IsFrame frame) (rest : List α) :
    (frame ++ rest).take format.headerSize = frame.take format.headerSize :=
  List.take_append_of_le_length hframe.header_le

/-- A frame at the front of a buffer is cut off. -/
theorem next_append {frame : List α} (hframe : format.IsFrame frame) (rest : List α) :
    format.next (frame ++ rest) = (some frame, rest) := by
  have hheader := take_headerSize_append hframe rest
  have htotal : format.totalSize (frame ++ rest) = frame.length := by
    rw [hframe.length_eq, totalSize, hheader, totalSize]
  have hlong : ¬ (frame ++ rest).length < format.headerSize := by
    have hle := hframe.header_le
    rw [List.length_append]
    omega
  have hbody : ¬ format.maxBodySize < format.bodySize ((frame ++ rest).take format.headerSize) := by
    rw [hheader]
    exact not_lt.mpr hframe.body_le
  have hcomplete : format.totalSize (frame ++ rest) ≤ (frame ++ rest).length := by
    rw [htotal, List.length_append]
    omega
  rw [next, if_neg hlong, if_neg hbody, if_pos hcomplete, htotal, List.take_left, List.drop_left]

/-- A proper prefix of a frame is left in the buffer. -/
theorem next_of_properPrefix {held frame : List α} (hframe : format.IsFrame frame)
    (hinitial : held <+: frame) (hshort : held.length < frame.length) :
    format.next held = (none, held) := by
  by_cases hheader : held.length < format.headerSize
  · rw [next, if_pos hheader]
  · obtain ⟨later, rfl⟩ := hinitial
    have htake : (held ++ later).take format.headerSize = held.take format.headerSize :=
      List.take_append_of_le_length (not_lt.mp hheader)
    have hbody : ¬ format.maxBodySize < format.bodySize (held.take format.headerSize) := by
      rw [← htake]
      exact not_lt.mpr hframe.body_le
    have hincomplete : ¬ format.totalSize held ≤ held.length := by
      have htotal : format.totalSize held = (held ++ later).length := by
        rw [hframe.length_eq, totalSize, totalSize, htake]
      omega
    rw [next, if_neg hheader, if_neg hbody, if_neg hincomplete]

theorem next_of_pending {frames : List (List α)} (hframes : ∀ frame ∈ frames, format.IsFrame frame)
    {held : List α} (hheld : Pending frames held) : format.next held = (none, held) := by
  cases frames with
  | nil =>
    have hnil : held = [] := hheld
    rw [hnil, next, if_pos (by simpa using format.headerSize_pos)]
  | cons frame frames =>
    exact next_of_properPrefix (hframes frame List.mem_cons_self) hheld.1 hheld.2

/-! ### Draining -/

/-- Assumes: a buffer of complete frames followed by something from which no frame can be cut, and
more attempts than the buffer is long. Draining returns exactly these frames, and leaves what the
last attempt leaves. -/
theorem drain_append_of_next (frames : List (List α))
    (hframes : ∀ frame ∈ frames, format.IsFrame frame) {held left : List α}
    (hheld : format.next held = (none, left)) (fuel : ℕ)
    (hfuel : (frames.flatten ++ held).length < fuel) :
    drainWith format.next fuel (frames.flatten ++ held) = some (frames, left) := by
  induction frames generalizing fuel with
  | nil =>
    obtain ⟨fuel, rfl⟩ : ∃ n, fuel = n + 1 := ⟨fuel - 1, by omega⟩
    exact drainWith_of_none hheld fuel
  | cons frame frames ih =>
    obtain ⟨fuel, rfl⟩ : ∃ n, fuel = n + 1 := ⟨fuel - 1, by omega⟩
    have hframe := hframes frame List.mem_cons_self
    have hpos : 0 < frame.length := lt_of_lt_of_le format.headerSize_pos hframe.header_le
    have hrest : (frames.flatten ++ held).length < fuel := by
      rw [List.flatten_cons, List.append_assoc, List.length_append] at hfuel
      omega
    rw [List.flatten_cons, List.append_assoc, drainWith_of_some (next_append hframe _),
      ih (fun other hother ↦ hframes other (List.mem_cons_of_mem _ hother)) fuel hrest]
    rfl

/-- Assumes: a buffer of complete frames followed by something from which no frame can be cut, and
more attempts than the buffer is long. Draining returns exactly these frames. -/
theorem drain_flatten_append (frames : List (List α))
    (hframes : ∀ frame ∈ frames, format.IsFrame frame) {held : List α}
    (hheld : format.next held = (none, held)) (fuel : ℕ)
    (hfuel : (frames.flatten ++ held).length < fuel) :
    drainWith format.next fuel (frames.flatten ++ held) = some (frames, held) :=
  drain_append_of_next frames hframes hheld fuel hfuel

/-- The step of a reader. Assumes: the buffer, the chunk and the rest of the stream together are
the frames still to come. Draining the buffer with the chunk appended returns the frames that are
now complete, leaves a proper prefix of the next one, and what is left continues into the rest of
the stream as the frames still to come. -/
theorem drain_chunk (frames : List (List α)) (hframes : ∀ frame ∈ frames, format.IsFrame frame)
    (received rest : List α) (hstream : received ++ rest = frames.flatten) (fuel : ℕ)
    (hfuel : received.length < fuel) :
    ∃ count ≤ frames.length, ∃ held,
      drainWith format.next fuel received = some (frames.take count, held) ∧
        Pending (frames.drop count) held ∧ held ++ rest = (frames.drop count).flatten := by
  obtain ⟨count, hcount, held, rfl, hheld⟩ :=
    exists_split_of_prefix_flatten frames received ⟨rest, hstream⟩
  refine ⟨count, hcount, held, ?_, hheld, ?_⟩
  · refine drain_flatten_append _ (fun frame hframe ↦ hframes frame (List.mem_of_mem_take hframe))
      (next_of_pending (fun frame hframe ↦ hframes frame (List.mem_of_mem_drop hframe)) hheld)
      fuel hfuel
  · have hsplit : (frames.take count).flatten ++ (frames.drop count).flatten = frames.flatten := by
      rw [← List.flatten_append, List.take_append_drop]
    rw [← hsplit, List.append_assoc] at hstream
    exact List.append_cancel_left hstream

/-! ### The frames of a stream -/

/-- What is cut off a buffer is a frame at its front. -/
theorem next_eq_some {buffer frame rest : List α}
    (hnext : format.next buffer = (some frame, rest)) :
    format.IsFrame frame ∧ buffer = frame ++ rest := by
  unfold next at hnext
  split_ifs at hnext with hheader hbody htotal
  · cases hnext
  · cases hnext
  · cases hnext
    have htake : (buffer.take (format.totalSize buffer)).take format.headerSize =
        buffer.take format.headerSize := by
      rw [List.take_take, min_eq_left]
      exact Nat.le_add_right _ _
    have hlength : (buffer.take (format.totalSize buffer)).length = format.totalSize buffer :=
      List.length_take_of_le htotal
    refine ⟨⟨?_, ?_, ?_⟩, (List.take_append_drop _ _).symm⟩
    · rw [hlength]
      exact Nat.le_add_right _ _
    · rw [htake]
      exact not_lt.mp hbody
    · rw [hlength]
      show format.totalSize buffer = format.headerSize + format.bodySize _
      rw [htake]
      rfl
  · cases hnext

/-- Draining a stream ends. -/
theorem exists_drain (format : FrameFormat α) {fuel : ℕ} (stream : List α)
    (hfuel : stream.length < fuel) :
    ∃ result, drainWith format.next fuel stream = some result := by
  induction fuel generalizing stream with
  | zero => exact absurd hfuel (Nat.not_lt_zero _)
  | succ fuel ih =>
    rcases hnext : format.next stream with ⟨_ | frame, rest⟩
    · exact ⟨_, drainWith_of_none hnext fuel⟩
    · obtain ⟨hframe, hstream⟩ := next_eq_some hnext
      have hpos : 0 < frame.length := lt_of_lt_of_le format.headerSize_pos hframe.header_le
      rw [hstream, List.length_append] at hfuel
      obtain ⟨result, hresult⟩ := ih rest (by omega)
      exact ⟨_, (drainWith_of_some hnext fuel).trans (congrArg _ hresult)⟩

variable (format) in
/-- The frames of a stream: those that can be cut off it one after the other. -/
def framesOf (stream : List α) : List (List α) :=
  ((drainWith format.next (stream.length + 1) stream).map Prod.fst).getD []

theorem framesOf_of_next_none {stream : List α} (rest : List α)
    (hnext : format.next stream = (none, rest)) :
    format.framesOf stream = [] := by
  rw [framesOf, drainWith_of_none hnext]
  rfl

/-- A stream that is too short for a header has no frame. -/
theorem framesOf_of_short {stream : List α} (hshort : stream.length < format.headerSize) :
    format.framesOf stream = [] :=
  framesOf_of_next_none stream (if_pos hshort)

theorem framesOf_append {frame : List α} (hframe : format.IsFrame frame) (rest : List α) :
    format.framesOf (frame ++ rest) = frame :: format.framesOf rest := by
  have hpos : 0 < frame.length := lt_of_lt_of_le format.headerSize_pos hframe.header_le
  obtain ⟨result, hresult⟩ := exists_drain format rest (Nat.lt_succ_self rest.length)
  have hlonger : drainWith format.next (frame ++ rest).length rest = some result := by
    refine drainWith_mono ?_ hresult
    rw [List.length_append]
    omega
  rw [framesOf, framesOf, drainWith_of_some (next_append hframe rest), hlonger, hresult]
  rfl

theorem framesOf_flatten_append {frames : List (List α)}
    (hframes : ∀ frame ∈ frames, format.IsFrame frame) (rest : List α) :
    format.framesOf (frames.flatten ++ rest) = frames ++ format.framesOf rest := by
  induction frames with
  | nil => rfl
  | cons frame frames ih =>
    rw [List.flatten_cons, List.append_assoc, framesOf_append (hframes frame List.mem_cons_self),
      ih fun other hother ↦ hframes other (List.mem_cons_of_mem _ hother)]
    rfl

theorem framesOf_flatten {frames : List (List α)}
    (hframes : ∀ frame ∈ frames, format.IsFrame frame) :
    format.framesOf frames.flatten = frames := by
  have hempty : format.framesOf ([] : List α) = [] := framesOf_of_short format.headerSize_pos
  have hall := framesOf_flatten_append hframes []
  rwa [List.append_nil, hempty, List.append_nil] at hall

/-- A frame at the front of a concatenation of frames is the first of them. -/
theorem exists_eq_cons_of_prefix_flatten {frame : List α} (hframe : format.IsFrame frame)
    {frames : List (List α)} (hframes : ∀ other ∈ frames, format.IsFrame other)
    (hinitial : frame <+: frames.flatten) : ∃ rest, frames = frame :: rest := by
  obtain ⟨more, hmore⟩ := hinitial
  have hfirst := congrArg format.framesOf hmore
  rw [framesOf_append hframe, framesOf_flatten hframes] at hfirst
  exact ⟨_, hfirst.symm⟩

/-- The frames of a stream are frames, they are at its front in order, and what remains does not
begin with another one. -/
theorem framesOf_spec (stream : List α) :
    (∀ frame ∈ format.framesOf stream, format.IsFrame frame) ∧
      ∃ rest, stream = (format.framesOf stream).flatten ++ rest ∧
        (format.next rest).1 = none := by
  induction hlength : stream.length using Nat.strongRecOn generalizing stream with
  | _ length ih =>
    rcases hnext : format.next stream with ⟨_ | frame, rest⟩
    · rw [framesOf_of_next_none rest hnext]
      exact ⟨fun _ h ↦ absurd h List.not_mem_nil, stream, rfl, congrArg Prod.fst hnext⟩
    · obtain ⟨hframe, rfl⟩ := next_eq_some hnext
      have hpos : 0 < frame.length := lt_of_lt_of_le format.headerSize_pos hframe.header_le
      rw [List.length_append] at hlength
      obtain ⟨hframes, last, hrest, hlast⟩ := ih rest.length (by omega) rest rfl
      rw [framesOf_append hframe]
      refine ⟨List.forall_mem_cons.mpr ⟨hframe, hframes⟩, last, ?_, hlast⟩
      rw [List.flatten_cons, List.append_assoc, ← hrest]

/-! ### What remains of a stream -/

variable (format) (stream more : List α)

/-- What remains of a stream behind its frames. -/
def restOf : List α := stream.drop (format.framesOf stream).flatten.length

/-- Behind the frames of a stream stands a header that announces a body above the limit. -/
def Violated : Prop :=
  format.headerSize ≤ (format.restOf stream).length ∧
    format.maxBodySize < format.bodySize ((format.restOf stream).take format.headerSize)

instance : Decidable (format.Violated stream) := inferInstanceAs (Decidable (_ ∧ _))

theorem flatten_framesOf_append_restOf :
    (format.framesOf stream).flatten ++ format.restOf stream = stream := by
  obtain ⟨-, rest, hstream, -⟩ := @framesOf_spec _ format stream
  exact List.prefix_iff_eq_append.mp ⟨rest, hstream.symm⟩

/-- No frame is cut off what remains, and all of it is given up if its header announces too large a
body. -/
theorem next_restOf :
    format.next (format.restOf stream) =
      (none, if format.Violated stream then [] else format.restOf stream) := by
  obtain ⟨-, rest, hstream, hnone⟩ := @framesOf_spec _ format stream
  have hrest : format.restOf stream = rest :=
    List.append_cancel_left ((flatten_framesOf_append_restOf format stream).trans hstream)
  rw [← hrest] at hnone
  by_cases hviolated : format.Violated stream
  · rw [next, if_neg (not_lt.mpr hviolated.1), if_pos hviolated.2, if_pos hviolated]
  · rw [if_neg hviolated]
    by_cases hheader : (format.restOf stream).length < format.headerSize
    · rw [next, if_pos hheader]
    · have hbody : ¬format.maxBodySize <
          format.bodySize ((format.restOf stream).take format.headerSize) :=
        fun hlarge ↦ hviolated ⟨not_lt.mp hheader, hlarge⟩
      rw [next, if_neg hheader, if_neg hbody] at hnone ⊢
      split_ifs at hnone ⊢
      rfl

/-- A drain of any buffer returns its frames and leaves what remains, or nothing. -/
theorem drain_spec {fuel : ℕ} (hfuel : stream.length < fuel) :
    drainWith format.next fuel stream =
      some (format.framesOf stream,
        if format.Violated stream then [] else format.restOf stream) := by
  have hsplit := flatten_framesOf_append_restOf format stream
  rw [← hsplit] at hfuel
  have hdrain := drain_append_of_next _ (@framesOf_spec _ format stream).1
    (next_restOf format stream) fuel hfuel
  rwa [hsplit] at hdrain

/-- The frames of a stream that goes on are those of the stream, and then those of what remains of
it and goes on. -/
theorem framesOf_append_eq :
    format.framesOf (stream ++ more) =
      format.framesOf stream ++ format.framesOf (format.restOf stream ++ more) := by
  rw [← framesOf_flatten_append (@framesOf_spec _ format stream).1, ← List.append_assoc,
    flatten_framesOf_append_restOf]

theorem restOf_append_eq :
    format.restOf (stream ++ more) = format.restOf (format.restOf stream ++ more) := by
  have hfront : (format.framesOf stream).flatten ++ (format.restOf stream ++ more) =
      stream ++ more := by
    rw [← List.append_assoc, flatten_framesOf_append_restOf]
  have hwhole := flatten_framesOf_append_restOf format (stream ++ more)
  rw [framesOf_append_eq, List.flatten_append, List.append_assoc] at hwhole
  have hbehind := List.append_cancel_left (hwhole.trans hfront.symm)
  have hrest := flatten_framesOf_append_restOf format (format.restOf stream ++ more)
  exact List.append_cancel_left (hbehind.trans hrest.symm)

theorem violated_append_iff :
    format.Violated (stream ++ more) ↔ format.Violated (format.restOf stream ++ more) := by
  rw [Violated, Violated, restOf_append_eq]

end FrameFormat

end TszyUlt.Lib
