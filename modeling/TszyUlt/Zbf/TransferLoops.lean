import TszyUlt.Lib.Transition
import TszyUlt.Zbf.SyncClient

/-!
# The blocking transfer loops

`zbf/socket_utils.hpp`: `send_with_retry_` and `recv_all`, turn by turn. A loop is a state, its
local variables, and each turn is one system call with what it came to (`SendLoop.step`,
`RecvLoop.step`). A turn cannot be taken when the loop was left, when the region that it passes to
the system call is not within the buffer, or when the system call returns more than it was offered.

`SendLoop.Turn` and `RecvLoop.Turn` say what one turn can do to a loop that is running. From them
`SendLoop.exists_left` and `RecvLoop.exists_left` derive that a loop is left after a bounded number
of turns, whatever the system calls come to, and `SendLoop.Running.exact` and
`RecvLoop.Running.exact` what has been transferred and returned then. `sendWithRetry_of_run` and
`recvAll_of_run` say that these loops are the functions that `tcpsock_client` is modelled with.

Scope. The sizes are values of `int`. No counter exceeds the size or the number of retries, so that
nothing wraps around. The log texts and the pauses between retries are left out.
-/

set_option autoImplicit false
set_option relaxedAutoImplicit false

namespace TszyUlt.Zbf

open Lib

/-! ### Sending -/

/-- The variables of `send_with_retry_`. `accepted` is what the socket took, and `ended` says that
the loop was left. -/
structure SendLoop where
  rc : ℤ
  totalSent : ℕ
  rest : ℕ
  offset : ℕ
  retry : ℕ
  accepted : Bytes
  ended : Bool
  deriving DecidableEq, Repr

namespace SendLoop

/-- The loop before its first turn. -/
def start (data : Bytes) : SendLoop where
  rc := data.length
  totalSent := 0
  rest := data.length
  offset := 0
  retry := 0
  accepted := []
  ended := false

/-- One turn of `send_with_retry_` on what `::send` came to. -/
def step (data : Bytes) (maxRetry : ℤ) (loop : SendLoop) (call : SendCall) : Option SendLoop :=
  if loop.ended then none
  else
    (copyFrom data loop.offset loop.rest).bind fun offered ↦
      match call with
      | .failed => some { loop with rc := -1, ended := true }
      | .again =>
        let retry := loop.retry + 1
        if retry ≥ maxRetry then
          some { loop with rc := loop.totalSent, retry := retry, ended := true }
        else some { loop with retry := retry }
      | .returned sent =>
        if sent > offered.length then none
        else if sent = 0 then some { loop with rc := 0, ended := true }
        else
          let totalSent := loop.totalSent + sent
          some
            { rc := loop.rc
              totalSent := totalSent
              rest := loop.rest - sent
              offset := loop.offset + sent
              retry := 0
              accepted := loop.accepted ++ offered.take sent
              ended := decide (totalSent ≥ data.length) }

/-- What `::send` can come to: it takes no more than it was offered. -/
def CanReturn (loop : SendLoop) : SendCall → Prop
  | .returned sent => sent ≤ loop.rest
  | _ => True

/-- A loop that was not left: something is still to be sent, and the retries are not used up. -/
structure Running (data : Bytes) (maxRetry : ℤ) (loop : SendLoop) : Prop where
  not_ended : loop.ended = false
  rc_eq : loop.rc = data.length
  offset_eq : loop.offset = loop.totalSent
  total_eq : loop.totalSent + loop.rest = data.length
  rest_pos : 0 < loop.rest
  retry_lt : loop.retry < max 1 maxRetry.toNat
  accepted_eq : loop.accepted = data.take loop.totalSent

variable {data : Bytes} {maxRetry : ℤ} {loop next final : SendLoop} {call : SendCall}
  {calls : List SendCall}

theorem running_start (hdata : data ≠ []) (maxRetry : ℤ) : (start data).Running data maxRetry where
  not_ended := rfl
  rc_eq := rfl
  offset_eq := rfl
  total_eq := Nat.zero_add _
  rest_pos := List.length_pos_iff.mpr hdata
  retry_lt := lt_max_of_lt_left Nat.one_pos
  accepted_eq := rfl

theorem Running.accepted_prefix (hrunning : loop.Running data maxRetry) :
    loop.accepted <+: data :=
  hrunning.accepted_eq ▸ List.take_prefix _ _

theorem Running.accepted_lt (hrunning : loop.Running data maxRetry) :
    loop.accepted.length < data.length := by
  have htotal := hrunning.total_eq
  have hrest := hrunning.rest_pos
  rw [hrunning.accepted_eq, List.length_take]
  omega

theorem Running.length_accepted (hrunning : loop.Running data maxRetry) :
    loop.accepted.length = loop.totalSent := by
  have htotal := hrunning.total_eq
  rw [hrunning.accepted_eq, List.length_take]
  omega

/-- What one turn can do to a running loop. -/
inductive Turn (data : Bytes) (maxRetry : ℤ) (loop : SendLoop) : SendCall → SendLoop → Prop
  | failed : Turn data maxRetry loop .failed { loop with rc := -1, ended := true }
  | closed : Turn data maxRetry loop (.returned 0) { loop with rc := 0, ended := true }
  | gaveUp (hretries : maxRetry ≤ loop.retry + 1) :
      Turn data maxRetry loop .again
        { loop with rc := loop.totalSent, retry := loop.retry + 1, ended := true }
  | retried {next : SendLoop} (hnext : next.Running data maxRetry) (hrest : next.rest = loop.rest)
      (hretry : next.retry = loop.retry + 1) : Turn data maxRetry loop .again next
  | complete {sent : ℕ} {next : SendLoop} (hsent : sent ≠ 0) (hall : sent = loop.rest)
      (htotal : next.totalSent = data.length) (hended : next.ended = true)
      (hrc : next.rc = data.length) (haccepted : next.accepted = data) :
      Turn data maxRetry loop (.returned sent) next
  | advanced {sent : ℕ} {next : SendLoop} (hsent : sent ≠ 0)
      (htotal : next.totalSent = loop.totalSent + sent) (hnext : next.Running data maxRetry)
      (hretry : next.retry = 0) : Turn data maxRetry loop (.returned sent) next

/-- The region that a running loop passes to `::send` is within the data. -/
theorem Running.copyFrom_eq (hrunning : loop.Running data maxRetry) :
    copyFrom data loop.offset loop.rest = some (data.drop loop.totalSent) := by
  have htotal := hrunning.total_eq
  rw [hrunning.offset_eq, copyFrom_of_le htotal.le, List.take_of_length_le]
  rw [List.length_drop]
  omega

theorem Running.turn (hrunning : loop.Running data maxRetry)
    (hstep : step data maxRetry loop call = some next) : Turn data maxRetry loop call next := by
  have htotal := hrunning.total_eq
  have hretry := hrunning.retry_lt
  simp only [step, hrunning.not_ended, Bool.false_eq_true, if_false, hrunning.copyFrom_eq,
    Option.bind_some] at hstep
  cases call with
  | failed =>
    cases hstep
    exact .failed
  | again =>
    simp only at hstep
    split_ifs at hstep with hlast
    · cases hstep
      exact .gaveUp (by exact_mod_cast hlast)
    · cases hstep
      refine .retried { hrunning with not_ended := rfl, retry_lt := ?_ } rfl rfl
      have hmore := not_le.mp hlast
      simp only
      omega
  | returned sent =>
    simp only [List.length_drop] at hstep
    split_ifs at hstep with hmore hzero
    · cases hstep
      rw [hzero]
      exact .closed
    · cases hstep
      have haccepted : loop.accepted ++ (data.drop loop.totalSent).take sent =
          data.take (loop.totalSent + sent) := by
        rw [hrunning.accepted_eq, List.take_add]
      by_cases hall : loop.totalSent + sent ≥ data.length
      · refine .complete hzero (by omega) (by simp only; omega) (decide_eq_true hall)
          hrunning.rc_eq ?_
        simp only [haccepted, List.take_of_length_le hall]
      · refine .advanced hzero rfl
          ⟨decide_eq_false hall, hrunning.rc_eq, ?_, ?_, ?_, ?_, haccepted⟩ rfl
        · rw [hrunning.offset_eq]
        all_goals simp only; omega

/-- What `send_with_retry_` came to after the results `calls`, of which `errors` asked for a retry.
-/
structure Exact (data : Bytes) (maxRetry : ℤ) (errors : ℕ) (calls : List SendCall)
    (final : SendLoop) : Prop where
  accepted_prefix : final.accepted <+: data
  complete : final.rc = data.length ↔ final.accepted.length = data.length
  failed : final.rc = -1 ↔ .failed ∈ calls
  closed : .returned 0 ∈ calls → final.rc = 0
  zero : final.rc = 0 → .returned 0 ∈ calls ∨ final.accepted = [] ∧ maxRetry ≤ errors
  otherwise : .failed ∉ calls → .returned 0 ∉ calls → final.rc = final.accepted.length

/-- Assumes: a call after which the loop goes on. It may precede the others. -/
theorem Exact.cons {errors total : ℕ} (hexact : Exact data maxRetry errors calls final)
    (hfailed : call ≠ .failed) (hclosed : call ≠ .returned 0) (herrors : errors ≤ total) :
    Exact data maxRetry total (call :: calls) final where
  accepted_prefix := hexact.accepted_prefix
  complete := hexact.complete
  failed := by
    rw [hexact.failed, List.mem_cons]
    exact (or_iff_right hfailed.symm).symm
  closed := fun hmem ↦ hexact.closed (List.mem_of_ne_of_mem hclosed.symm hmem)
  zero := by
    intro hrc
    rcases hexact.zero hrc with hmem | ⟨hnone, hretries⟩
    · exact .inl (List.mem_cons_of_mem _ hmem)
    · exact .inr ⟨hnone, hretries.trans (by exact_mod_cast herrors)⟩
  otherwise := fun hnoFailure hnoClose ↦ hexact.otherwise
    (fun hmem ↦ hnoFailure (List.mem_cons_of_mem _ hmem))
    (fun hmem ↦ hnoClose (List.mem_cons_of_mem _ hmem))

theorem step_of_ended (hended : loop.ended = true) (call : SendCall) :
    step data maxRetry loop call = none :=
  if_pos hended

/-- After the loop was left there are no more turns. -/
theorem run_of_ended (hended : loop.ended = true)
    (hrun : runFrom (step data maxRetry) loop calls = some final) : calls = [] ∧ final = loop := by
  cases calls with
  | nil =>
    cases hrun
    exact ⟨rfl, rfl⟩
  | cons call calls =>
    rw [runFrom_cons, step_of_ended hended] at hrun
    cases hrun

/-- A turn leaves the loop, or it goes on after a call that neither failed nor found the peer
closed. -/
theorem Turn.ended_or_running (hturn : Turn data maxRetry loop call next) :
    next.ended = true ∨ next.Running data maxRetry ∧ call ≠ .failed ∧ call ≠ .returned 0 ∧
      next.retry ≤ loop.retry + [call].count .again := by
  cases hturn with
  | failed => exact .inl rfl
  | closed => exact .inl rfl
  | gaveUp _ => exact .inl rfl
  | complete _ _ _ hended _ _ => exact .inl hended
  | retried hnext _ hretry => exact .inr ⟨hnext, nofun, nofun, hretry.le⟩
  | advanced hsent _ hnext hretry =>
    refine .inr ⟨hnext, nofun, ?_, hretry.trans_le (Nat.zero_le _)⟩
    exact fun hcall ↦ hsent (SendCall.returned.inj hcall)

/-- Assumes: a running loop, and a turn that leaves it. What was accepted and what is returned then.
-/
theorem Running.exact_last (hrunning : loop.Running data maxRetry)
    (hturn : Turn data maxRetry loop call final) (hended : final.ended = true) :
    Exact data maxRetry (loop.retry + [call].count .again) [call] final := by
  have hlt := hrunning.accepted_lt
  cases hturn with
  | failed =>
    exact {
      accepted_prefix := hrunning.accepted_prefix
      complete := by simp only; omega
      failed := iff_of_true rfl List.mem_cons_self
      closed := by simp
      zero := nofun
      otherwise := fun hnoFailure ↦ absurd List.mem_cons_self hnoFailure }
  | closed =>
    exact {
      accepted_prefix := hrunning.accepted_prefix
      complete := by simp only; omega
      failed := by simp
      closed := fun _ ↦ rfl
      zero := fun _ ↦ .inl List.mem_cons_self
      otherwise := fun _ hnoClose ↦ absurd List.mem_cons_self hnoClose }
  | gaveUp hretries =>
    have hlength := hrunning.length_accepted
    exact {
      accepted_prefix := hrunning.accepted_prefix
      complete := by simp only; omega
      failed := iff_of_false (by simp only; omega) (by simp)
      closed := by simp
      zero := by
        intro hrc
        refine .inr ⟨List.length_eq_zero_iff.mp ?_, by simpa using hretries⟩
        simp only at hrc ⊢
        omega
      otherwise := fun _ _ ↦ by rw [hlength] }
  | complete hsent _ _ _ hrc haccepted =>
    exact {
      accepted_prefix := haccepted ▸ List.prefix_rfl
      complete := iff_of_true hrc (congrArg List.length haccepted)
      failed := iff_of_false (by omega) (by simp)
      closed := fun hmem ↦ absurd (by simpa using hmem : 0 = _) hsent.symm
      zero := by omega
      otherwise := fun _ _ ↦ by rw [hrc, haccepted] }
  | retried hnext _ _ => exact absurd hended (ne_true_of_eq_false hnext.not_ended)
  | advanced _ _ hnext _ => exact absurd hended (ne_true_of_eq_false hnext.not_ended)

/-- Assumes: a running loop, and a run of turns after which it is left. What was accepted and what
is returned then. -/
theorem Running.exact (hrunning : loop.Running data maxRetry)
    (hrun : runFrom (step data maxRetry) loop calls = some final) (hended : final.ended = true) :
    Exact data maxRetry (loop.retry + calls.count .again) calls final := by
  induction calls generalizing loop with
  | nil =>
    cases hrun
    exact absurd hended (ne_true_of_eq_false hrunning.not_ended)
  | cons call calls ih =>
    rw [runFrom_cons, Option.bind_eq_some_iff] at hrun
    obtain ⟨next, hstep, hrest⟩ := hrun
    have hturn := hrunning.turn hstep
    rcases hturn.ended_or_running with hleft | ⟨hnext, hfailed, hclosed, hretry⟩
    · obtain ⟨rfl, rfl⟩ := run_of_ended hleft hrest
      exact hrunning.exact_last hturn hleft
    · refine (ih hnext hrest).cons hfailed hclosed ?_
      rw [← List.singleton_append, List.count_append]
      omega

/-- How many turns are left at most: as many retries for every byte that is to be sent. -/
def turnsLeft (maxRetry : ℤ) (loop : SendLoop) : ℕ :=
  if loop.ended then 0
  else (loop.rest - 1) * max 1 maxRetry.toNat + (max 1 maxRetry.toNat - loop.retry)

theorem turnsLeft_of_ended (maxRetry : ℤ) (hended : loop.ended = true) :
    loop.turnsLeft maxRetry = 0 :=
  if_pos hended

theorem Running.turnsLeft_eq (hrunning : loop.Running data maxRetry) :
    loop.turnsLeft maxRetry =
      (loop.rest - 1) * max 1 maxRetry.toNat + (max 1 maxRetry.toNat - loop.retry) := by
  rw [turnsLeft, if_neg (by rw [hrunning.not_ended]; decide)]

/-- Assumes: a running loop. A turn leaves it, or it is running with fewer turns left. -/
theorem Running.turnsLeft_lt (hrunning : loop.Running data maxRetry)
    (hstep : step data maxRetry loop call = some next) :
    (next.ended = true ∨ next.Running data maxRetry) ∧
      next.turnsLeft maxRetry < loop.turnsLeft maxRetry := by
  have hretry := hrunning.retry_lt
  have hleft := hrunning.turnsLeft_eq
  have hturn := hrunning.turn hstep
  rcases hturn.ended_or_running with hended | ⟨hnext, -⟩
  · refine ⟨.inl hended, ?_⟩
    rw [turnsLeft_of_ended maxRetry hended]
    omega
  refine ⟨.inr hnext, ?_⟩
  have htotal := hrunning.total_eq
  have hnextTotal := hnext.total_eq
  have hless := hnext.rest_pos
  cases hturn with
  | retried _ hrest hcount =>
    rw [hnext.turnsLeft_eq, hleft, hrest, hcount]
    omega
  | advanced hsent hsum _ hcount =>
    rw [hnext.turnsLeft_eq, hleft, hcount, Nat.sub_zero, ← Nat.succ_mul]
    have hrows : (next.rest - 1).succ * max 1 maxRetry.toNat ≤
        (loop.rest - 1) * max 1 maxRetry.toNat := Nat.mul_le_mul_right _ (by omega)
    omega
  | failed => exact absurd hnext.not_ended nofun
  | closed => exact absurd hnext.not_ended nofun
  | gaveUp _ => exact absurd hnext.not_ended nofun
  | complete _ _ _ hended _ _ => exact absurd hended (ne_true_of_eq_false hnext.not_ended)

/-- Assumes: a running loop can take a turn on whatever `::send` can come to. -/
theorem Running.step_ne_none (hrunning : loop.Running data maxRetry) (hcall : loop.CanReturn call) :
    step data maxRetry loop call ≠ none := by
  have htotal := hrunning.total_eq
  simp only [step, hrunning.not_ended, Bool.false_eq_true, if_false, hrunning.copyFrom_eq,
    Option.bind_some]
  cases call with
  | failed => nofun
  | again => split_ifs <;> nofun
  | returned sent =>
    have hfits : ¬sent > (data.drop loop.totalSent).length := by
      have hle : sent ≤ loop.rest := hcall
      rw [List.length_drop]
      omega
    simp only [if_neg hfits]
    split_ifs <;> nofun

/-- Assumes: some data, and results that `::send` can come to. The loop is left after no more turns
than there are bytes times retries. -/
theorem exists_left (hdata : data ≠ []) (maxRetry : ℤ) {results : ℕ → SendCall}
    (hresults : ∀ k loop,
      runFrom (step data maxRetry) (start data) (firstActions results k) = some loop →
        loop.ended = false → loop.CanReturn (results k)) :
    ∃ k ≤ data.length * max 1 maxRetry.toNat, ∃ final,
      runFrom (step data maxRetry) (start data) (firstActions results k) = some final ∧
        final.ended = true := by
  have hrunning := running_start hdata maxRetry
  have hturn : ∀ loop call next, (loop.ended = true ∨ loop.Running data maxRetry) →
      step data maxRetry loop call = some next →
        (next.ended = true ∨ next.Running data maxRetry) ∧
          next.turnsLeft maxRetry < loop.turnsLeft maxRetry := by
    rintro loop call next (hended | hloop) hstep
    · rw [step_of_ended hended] at hstep
      cases hstep
    · exact hloop.turnsLeft_lt hstep
  obtain ⟨k, hk, final, hrun, hinvariant, hstuck⟩ :=
    exists_runFrom_stuck _ (turnsLeft maxRetry) hturn (.inr hrunning) results
  refine ⟨k, hk.trans ?_, final, hrun, ?_⟩
  · have hlength : (data.length - 1).succ = data.length :=
      Nat.succ_pred_eq_of_pos (List.length_pos_iff.mpr hdata)
    rw [hrunning.turnsLeft_eq]
    exact (Nat.succ_mul _ _).symm.le.trans_eq (congrArg (· * max 1 maxRetry.toNat) hlength)
  · rcases hinvariant with hended | hloop
    · exact hended
    · exact absurd hstuck (hloop.step_ne_none (hresults k final hrun hloop.not_ended))

/-- Assumes: data whose size is a value of `int`, a running loop, and a run of turns after which it
is left. It is the function that the client is modelled with. -/
theorem sendWithRetry_of_run {maxRetry : ℕ} (hsize : data.length < 2 ^ 31)
    (hrunning : loop.Running data maxRetry)
    (hrun : runFrom (step data maxRetry) loop calls = some final) (hended : final.ended = true)
    (more : List SendCall) :
    sendWithRetry data data.length maxRetry loop.totalSent loop.retry (calls ++ more) =
      some ⟨final.rc, final.totalSent⟩ := by
  induction calls generalizing loop with
  | nil =>
    cases hrun
    exact absurd hended (ne_true_of_eq_false hrunning.not_ended)
  | cons call calls ih =>
    rw [runFrom_cons, Option.bind_eq_some_iff] at hrun
    obtain ⟨next, hstep, hrest⟩ := hrun
    have htotal := hrunning.total_eq
    rw [List.cons_append]
    cases hrunning.turn hstep with
    | failed =>
      obtain ⟨rfl, rfl⟩ := run_of_ended rfl hrest
      rfl
    | closed =>
      obtain ⟨rfl, rfl⟩ := run_of_ended rfl hrest
      rw [sendWithRetry, if_pos (by omega), if_pos rfl]
    | gaveUp hretries =>
      obtain ⟨rfl, rfl⟩ := run_of_ended rfl hrest
      rw [sendWithRetry, if_pos (by exact_mod_cast hretries)]
    | retried hnext hless hretry =>
      have hnextTotal := hnext.total_eq
      have hbound := hnext.retry_lt
      have hsame : next.totalSent = loop.totalSent := by omega
      have hagain := ih hnext hrest
      rw [hretry, hsame] at hagain
      rw [sendWithRetry, if_neg (by rw [Int.toNat_natCast] at hbound; omega), hagain]
    | complete hsent hall hsum hleft hrc _ =>
      obtain ⟨rfl, rfl⟩ := run_of_ended hleft hrest
      rw [sendWithRetry, if_pos (by omega), if_neg hsent, if_neg (by omega), hrc, hsum]
      rw [hall, htotal]
    | advanced hsent hsum hnext hretry =>
      have hnextTotal := hnext.total_eq
      have hless := hnext.rest_pos
      have hadvanced := ih hnext hrest
      rw [hretry, hsum] at hadvanced
      rw [sendWithRetry, if_pos (by omega), if_neg hsent, if_pos (by omega), hadvanced]

end SendLoop

/-! ### Receiving -/

/-- The bytes that one `::recv` gave. -/
def RecvCall.bytes : RecvCall → Bytes
  | .returned chunk => chunk
  | _ => []

/-- The bytes of the stream that the calls of `::recv` gave. -/
def received (calls : List RecvCall) : Bytes := calls.flatMap RecvCall.bytes

theorem received_singleton (chunk : Bytes) : received [.returned chunk] = chunk :=
  List.append_nil chunk

/-- The variables of `recv_all`. The pointer `p` is an offset into the buffer, and `returned` is the
return code once there is one. -/
structure RecvLoop where
  buf : Bytes
  p : ℕ
  left : ℕ
  retry : ℕ
  returned : Option ℤ
  deriving DecidableEq, Repr

namespace RecvLoop

/-- The loop before its first turn. -/
def start (buf : Bytes) : RecvLoop where
  buf := buf
  p := 0
  left := buf.length
  retry := 0
  returned := if buf.length > 0 then none else some 0

/-- One turn of `recv_all` on what `::recv` came to. -/
def step (size : ℕ) (loop : RecvLoop) (call : RecvCall) : Option RecvLoop :=
  if loop.returned.isSome ∨ loop.buf.length < loop.p + loop.left then none
  else
    match call with
    | .failed => some { loop with returned := some (-1) }
    | .again =>
      let retry := loop.retry + 1
      if retry ≥ recvMaxRetry then
        some { loop with retry := retry, returned := some ((size : ℤ) - loop.left) }
      else some { loop with retry := retry }
    | .returned chunk =>
      if chunk.length > loop.left then none
      else if chunk = [] then some { loop with returned := some (-2) }
      else
        let left := loop.left - chunk.length
        some
          { buf := writeAt loop.buf loop.p chunk
            p := loop.p + chunk.length
            left := left
            retry := loop.retry
            returned := if left > 0 then none else some ((size : ℤ) - left) }

/-- What `::recv` can come to: it gives no more than it was asked for. -/
def CanReturn (loop : RecvLoop) : RecvCall → Prop
  | .returned chunk => chunk.length ≤ loop.left
  | _ => True

/-- A loop that has not returned: the bytes left to read have their place in the buffer, and the
retries are not used up. -/
structure Running (size : ℕ) (loop : RecvLoop) : Prop where
  not_returned : loop.returned = none
  length_buf : loop.buf.length = size
  total_eq : loop.p + loop.left = size
  left_pos : 0 < loop.left
  retry_lt : loop.retry < recvMaxRetry

variable {size : ℕ} {loop next final : RecvLoop} {call : RecvCall} {calls : List RecvCall} {rc : ℤ}

theorem running_start {buf : Bytes} (hbuf : buf ≠ []) : (start buf).Running buf.length where
  not_returned := if_pos (List.length_pos_iff.mpr hbuf)
  length_buf := rfl
  total_eq := Nat.zero_add _
  left_pos := List.length_pos_iff.mpr hbuf
  retry_lt := by
    rw [recvMaxRetry]
    exact Nat.zero_lt_succ _

/-- What one turn can do to a running loop. -/
inductive Turn (size : ℕ) (loop : RecvLoop) : RecvCall → RecvLoop → Prop
  | failed : Turn size loop .failed { loop with returned := some (-1) }
  | closed : Turn size loop (.returned []) { loop with returned := some (-2) }
  | gaveUp (hretries : loop.retry + 1 = recvMaxRetry) :
      Turn size loop .again { loop with retry := loop.retry + 1, returned := some (loop.p : ℤ) }
  | retried (hnext : Running size { loop with retry := loop.retry + 1 }) :
      Turn size loop .again { loop with retry := loop.retry + 1 }
  | filled {chunk : Bytes} {next : RecvLoop} (hchunk : chunk ≠ [])
      (hall : chunk.length = loop.left) (hbuf : next.buf = writeAt loop.buf loop.p chunk)
      (hreturned : next.returned = some (size : ℤ)) : Turn size loop (.returned chunk) next
  | stored {chunk : Bytes} {next : RecvLoop} (hchunk : chunk ≠ [])
      (hbuf : next.buf = writeAt loop.buf loop.p chunk) (hp : next.p = loop.p + chunk.length)
      (hretry : next.retry = loop.retry) (hnext : next.Running size) :
      Turn size loop (.returned chunk) next

theorem Running.not_refused (hrunning : loop.Running size) :
    ¬(loop.returned.isSome ∨ loop.buf.length < loop.p + loop.left) := by
  rw [hrunning.not_returned, hrunning.length_buf, hrunning.total_eq]
  simp

theorem Running.turn (hrunning : loop.Running size) (hstep : step size loop call = some next) :
    Turn size loop call next := by
  have htotal := hrunning.total_eq
  have hretry := hrunning.retry_lt
  unfold step at hstep
  rw [if_neg hrunning.not_refused] at hstep
  cases call with
  | failed =>
    cases hstep
    exact .failed
  | again =>
    simp only at hstep
    split_ifs at hstep with hlast
    · have hread : (size : ℤ) - loop.left = loop.p := by omega
      cases hstep
      rw [hread]
      exact .gaveUp (by omega)
    · cases hstep
      exact .retried { hrunning with retry_lt := not_le.mp hlast }
  | returned chunk =>
    simp only at hstep
    split_ifs at hstep with hmore hempty hleft
    · cases hstep
      rw [hempty]
      exact .closed
    · cases hstep
      have hfits : loop.p + chunk.length ≤ loop.buf.length := by
        rw [hrunning.length_buf]
        omega
      exact .stored hempty rfl rfl rfl
        ⟨rfl, (length_writeAt hfits).trans hrunning.length_buf, by simp only; omega, hleft, hretry⟩
    · cases hstep
      have hread : (size : ℤ) - (loop.left - chunk.length : ℕ) = size := by omega
      exact .filled hempty (by omega) rfl (congrArg some hread)

/-- What `recv_all` came to from a running loop on, after the results `calls`: its return code and
the buffer. -/
structure Transferred (size : ℕ) (loop : RecvLoop) (calls : List RecvCall) (rc : ℤ) (buf : Bytes) :
    Prop where
  errors_le : loop.retry + calls.count .again ≤ recvMaxRetry
  received_le : (received calls).length ≤ loop.left
  buf_eq : buf = writeAt loop.buf loop.p (received calls)
  complete : rc = size ↔ (received calls).length = loop.left
  failed : rc = -1 ↔ .failed ∈ calls
  closed : rc = -2 ↔ .returned [] ∈ calls
  otherwise : .failed ∉ calls → .returned [] ∉ calls → rc = loop.p + (received calls).length

/-- Assumes: a running loop, and a call that asks for a retry. It may precede the others. -/
theorem Transferred.cons_again {buf : Bytes}
    (hrest : Transferred size { loop with retry := loop.retry + 1 } calls rc buf) :
    Transferred size loop (.again :: calls) rc buf where
  errors_le := by
    have herrors := hrest.errors_le
    rw [List.count_cons_self]
    simp only at herrors
    omega
  received_le := hrest.received_le
  buf_eq := hrest.buf_eq
  complete := hrest.complete
  failed := hrest.failed.trans (by simp)
  closed := hrest.closed.trans (by simp)
  otherwise := fun hnoFailure hnoClose ↦ hrest.otherwise
    (fun hmem ↦ hnoFailure (List.mem_cons_of_mem _ hmem))
    (fun hmem ↦ hnoClose (List.mem_cons_of_mem _ hmem))

/-- Assumes: a chunk that leads from one running loop to the next. It may precede the others. -/
theorem Transferred.cons_returned {buf chunk : Bytes} (hrunning : loop.Running size)
    (hnext : next.Running size) (hchunk : chunk ≠ [])
    (hbuf : next.buf = writeAt loop.buf loop.p chunk) (hp : next.p = loop.p + chunk.length)
    (hretry : next.retry = loop.retry) (hrest : Transferred size next calls rc buf) :
    Transferred size loop (.returned chunk :: calls) rc buf := by
  have htotal := hrunning.total_eq
  have hnextTotal := hnext.total_eq
  have hlength : (received (.returned chunk :: calls)).length =
      chunk.length + (received calls).length := List.length_append
  have hcomplete := hrest.complete
  have hle := hrest.received_le
  have herrors := hrest.errors_le
  constructor
  · have hcount : (RecvCall.returned chunk :: calls).count .again = calls.count .again :=
      List.count_cons_of_ne (show RecvCall.returned chunk ≠ .again from nofun)
    rw [hcount, ← hretry]
    exact herrors
  · omega
  · rw [hrest.buf_eq, hbuf, hp, writeAt_writeAt (by rw [hrunning.length_buf]; omega)]
    rfl
  · rw [hcomplete, hlength]
    omega
  · exact hrest.failed.trans (by simp)
  · rw [hrest.closed, List.mem_cons, RecvCall.returned.injEq]
    exact (or_iff_right hchunk.symm).symm
  · intro hnoFailure hnoClose
    have hrc := hrest.otherwise (fun hmem ↦ hnoFailure (List.mem_cons_of_mem _ hmem))
      (fun hmem ↦ hnoClose (List.mem_cons_of_mem _ hmem))
    rw [hrc, hlength, hp]
    push_cast
    ring

theorem step_of_returned (hreturned : loop.returned = some rc) (call : RecvCall) :
    step size loop call = none :=
  if_pos (.inl (by rw [hreturned]; rfl))

/-- After the loop has returned there are no more turns. -/
theorem run_of_returned (hreturned : loop.returned = some rc)
    (hrun : runFrom (step size) loop calls = some final) : calls = [] ∧ final = loop := by
  cases calls with
  | nil =>
    cases hrun
    exact ⟨rfl, rfl⟩
  | cons call calls =>
    rw [runFrom_cons, step_of_returned hreturned] at hrun
    cases hrun

/-- After a turn the loop has returned, or it goes on. -/
theorem Turn.returned_or_running (hturn : Turn size loop call next) :
    (∃ rc, next.returned = some rc) ∨ next.Running size := by
  cases hturn with
  | failed => exact .inl ⟨_, rfl⟩
  | closed => exact .inl ⟨_, rfl⟩
  | gaveUp _ => exact .inl ⟨_, rfl⟩
  | filled _ _ _ hdone => exact .inl ⟨_, hdone⟩
  | retried hnext => exact .inr hnext
  | stored _ _ _ _ hnext => exact .inr hnext

theorem Running.not_returned_some (hrunning : loop.Running size) :
    loop.returned ≠ some rc := by
  rw [hrunning.not_returned]
  nofun

/-- Assumes: a running loop, and a call that gives no bytes. What is left when the loop returns
then. -/
theorem Running.transferred_unread (hrunning : loop.Running size) (hbytes : call.bytes = [])
    (herrors : loop.retry + [call].count .again ≤ recvMaxRetry) (hrc : rc ≠ size)
    (hfailed : rc = -1 ↔ call = .failed) (hclosed : rc = -2 ↔ call = .returned [])
    (hotherwise : call ≠ .failed → call ≠ .returned [] → rc = loop.p) :
    Transferred size loop [call] rc loop.buf := by
  have hnothing : received [call] = [] := by
    rw [received, List.flatMap_singleton, hbytes]
  constructor
  · exact herrors
  · rw [hnothing]
    exact Nat.zero_le _
  · rw [hnothing, writeAt_nil]
  · rw [hnothing]
    exact iff_of_false hrc hrunning.left_pos.ne
  · rw [hfailed, List.mem_singleton, eq_comm]
  · rw [hclosed, List.mem_singleton, eq_comm]
  · intro hnoFailure hnoClose
    rw [hnothing, List.length_nil, Nat.cast_zero, add_zero]
    exact hotherwise (fun heq ↦ hnoFailure (List.mem_singleton.mpr heq.symm))
      (fun heq ↦ hnoClose (List.mem_singleton.mpr heq.symm))

/-- Assumes: a running loop, and a turn after which it has returned. What it returned, and what it
wrote to the buffer. -/
theorem Running.transferred_last (hrunning : loop.Running size)
    (hturn : Turn size loop call final) (hreturned : final.returned = some rc) :
    Transferred size loop [call] rc final.buf := by
  have htotal := hrunning.total_eq
  have hleft := hrunning.left_pos
  have hretry := hrunning.retry_lt
  cases hturn with
  | failed =>
    cases hreturned
    exact hrunning.transferred_unread rfl hretry.le (by omega) (by simp) (by simp) (by simp)
  | closed =>
    cases hreturned
    exact hrunning.transferred_unread rfl hretry.le (by omega) (by simp) (by simp) (by simp)
  | gaveUp hretries =>
    cases hreturned
    exact hrunning.transferred_unread rfl hretries.le (by omega)
      (iff_of_false (by omega) nofun) (iff_of_false (by omega) nofun) fun _ _ ↦ rfl
  | filled hchunk hall hbuf hdone =>
    cases hdone.symm.trans hreturned
    exact {
      errors_le := hretry.le
      received_le := by rw [received_singleton, hall]
      buf_eq := by rw [received_singleton, hbuf]
      complete := iff_of_true rfl (by rw [received_singleton, hall])
      failed := iff_of_false (by omega) (by simp)
      closed := iff_of_false (by omega) (by simpa using hchunk.symm)
      otherwise := by
        rw [received_singleton, hall]
        omega }
  | retried hnext => exact absurd hreturned hnext.not_returned_some
  | stored _ _ _ _ hnext => exact absurd hreturned hnext.not_returned_some

/-- Assumes: a running loop, and a run of turns after which it has returned. What it returned, and
what it wrote to the buffer. -/
theorem Running.transferred (hrunning : loop.Running size)
    (hrun : runFrom (step size) loop calls = some final) (hreturned : final.returned = some rc) :
    Transferred size loop calls rc final.buf := by
  induction calls generalizing loop with
  | nil =>
    cases hrun
    exact absurd hreturned hrunning.not_returned_some
  | cons call calls ih =>
    rw [runFrom_cons, Option.bind_eq_some_iff] at hrun
    obtain ⟨next, hstep, hrest⟩ := hrun
    have hturn := hrunning.turn hstep
    rcases hturn.returned_or_running with ⟨code, hdone⟩ | hnext
    · obtain ⟨rfl, rfl⟩ := run_of_returned hdone hrest
      exact hrunning.transferred_last hturn hreturned
    have htransferred := ih hnext hrest
    cases hturn with
    | retried _ => exact htransferred.cons_again
    | stored hchunk hbuf hp hsame _ =>
      exact htransferred.cons_returned hrunning hnext hchunk hbuf hp hsame
    | failed => exact absurd rfl hnext.not_returned_some
    | closed => exact absurd rfl hnext.not_returned_some
    | gaveUp _ => exact absurd rfl hnext.not_returned_some
    | filled _ _ _ hdone => exact absurd hdone hnext.not_returned_some

/-- How many turns are left at most: one for every byte, and the retries. -/
def turnsLeft (loop : RecvLoop) : ℕ :=
  if loop.returned.isSome then 0 else loop.left + (recvMaxRetry - loop.retry)

theorem turnsLeft_of_returned (hreturned : loop.returned = some rc) : loop.turnsLeft = 0 :=
  if_pos (by rw [hreturned]; rfl)

theorem Running.turnsLeft_eq (hrunning : loop.Running size) :
    loop.turnsLeft = loop.left + (recvMaxRetry - loop.retry) :=
  if_neg (by rw [hrunning.not_returned]; nofun)

/-- Assumes: a running loop. After a turn it has returned, or it is running with fewer turns left.
-/
theorem Running.turnsLeft_lt (hrunning : loop.Running size)
    (hstep : step size loop call = some next) :
    ((∃ rc, next.returned = some rc) ∨ next.Running size) ∧ next.turnsLeft < loop.turnsLeft := by
  have hleft := hrunning.left_pos
  have hturns := hrunning.turnsLeft_eq
  have hturn := hrunning.turn hstep
  rcases hturn.returned_or_running with ⟨rc, hreturned⟩ | hnext
  · refine ⟨.inl ⟨rc, hreturned⟩, ?_⟩
    rw [turnsLeft_of_returned hreturned]
    omega
  refine ⟨.inr hnext, ?_⟩
  have htotal := hrunning.total_eq
  have hnextTotal := hnext.total_eq
  have hretry := hnext.retry_lt
  rw [hnext.turnsLeft_eq, hturns]
  cases hturn with
  | retried _ =>
    simp only at hretry ⊢
    omega
  | stored hchunk _ hp hsame _ =>
    have hlength := List.length_pos_iff.mpr hchunk
    omega
  | failed => exact absurd rfl hnext.not_returned_some
  | closed => exact absurd rfl hnext.not_returned_some
  | gaveUp _ => exact absurd rfl hnext.not_returned_some
  | filled _ _ _ hdone => exact absurd hdone hnext.not_returned_some

/-- Assumes: a running loop can take a turn on whatever `::recv` can come to. -/
theorem Running.step_ne_none (hrunning : loop.Running size) (hcall : loop.CanReturn call) :
    step size loop call ≠ none := by
  unfold step
  rw [if_neg hrunning.not_refused]
  cases call with
  | failed => nofun
  | again =>
    simp only
    split_ifs <;> nofun
  | returned chunk =>
    have hfits : ¬chunk.length > loop.left := not_lt.mpr hcall
    simp only [if_neg hfits]
    split_ifs <;> nofun

/-- Assumes: a buffer that is not empty, and results that `::recv` can come to. The loop returns
after no more turns than there are bytes and retries. -/
theorem exists_left {buf : Bytes} (hbuf : buf ≠ []) {results : ℕ → RecvCall}
    (hresults : ∀ k loop,
      runFrom (step buf.length) (start buf) (firstActions results k) = some loop →
        loop.returned = none → loop.CanReturn (results k)) :
    ∃ k ≤ buf.length + recvMaxRetry, ∃ final rc,
      runFrom (step buf.length) (start buf) (firstActions results k) = some final ∧
        final.returned = some rc := by
  have hrunning := running_start hbuf
  have hturn : ∀ loop call next,
      ((∃ rc, loop.returned = some rc) ∨ loop.Running buf.length) →
        step buf.length loop call = some next →
          ((∃ rc, next.returned = some rc) ∨ next.Running buf.length) ∧
            next.turnsLeft < loop.turnsLeft := by
    rintro loop call next (⟨rc, hreturned⟩ | hloop) hstep
    · rw [step_of_returned hreturned] at hstep
      cases hstep
    · exact hloop.turnsLeft_lt hstep
  obtain ⟨k, hk, final, hrun, hinvariant, hstuck⟩ :=
    exists_runFrom_stuck _ turnsLeft hturn (.inr hrunning) results
  rw [hrunning.turnsLeft_eq] at hk
  rcases hinvariant with ⟨rc, hreturned⟩ | hloop
  · exact ⟨k, hk, final, rc, hrun, hreturned⟩
  · exact absurd hstuck (hloop.step_ne_none (hresults k final hrun hloop.not_returned))

theorem recvAll_of_le {size : ℤ} {retry : ℕ} {got : Bytes} (hdone : size ≤ got.length)
    (calls : List RecvCall) :
    recvAll size retry got calls = some ⟨got.length, got, calls⟩ := by
  cases calls with
  | nil => exact if_pos hdone
  | cons call calls => exact if_pos hdone

/-- Assumes: some bytes are wanted, and a chunk of no more than those. It is read. -/
theorem recvAll_returned {size : ℤ} {got chunk : Bytes} (hmore : ¬size ≤ got.length)
    (hchunk : chunk ≠ []) (hfits : (got.length : ℤ) + chunk.length ≤ size) (retry : ℕ)
    (calls : List RecvCall) :
    recvAll size retry got (.returned chunk :: calls) =
      recvAll size retry (got ++ chunk) calls := by
  rw [recvAll, if_neg hmore]
  simp only [if_neg hchunk, if_pos hfits]

/-- Assumes: a running loop that has read `got`, and a run of turns after which it has returned. It
is the function that the client is modelled with. -/
theorem recvAll_of_run (hrunning : loop.Running size) {got : Bytes} (hgot : got.length = loop.p)
    (hrun : runFrom (step size) loop calls = some final) (hreturned : final.returned = some rc)
    (more : List RecvCall) :
    recvAll size loop.retry got (calls ++ more) = some ⟨rc, got ++ received calls, more⟩ := by
  induction calls generalizing loop got with
  | nil =>
    cases hrun
    exact absurd hreturned hrunning.not_returned_some
  | cons call calls ih =>
    rw [runFrom_cons, Option.bind_eq_some_iff] at hrun
    obtain ⟨next, hstep, hrest⟩ := hrun
    have htotal := hrunning.total_eq
    have hleft := hrunning.left_pos
    have hmore : ¬(size : ℤ) ≤ got.length := by omega
    rw [List.cons_append]
    cases hrunning.turn hstep with
    | failed =>
      obtain ⟨rfl, rfl⟩ := run_of_returned rfl hrest
      cases hreturned
      rw [recvAll, if_neg hmore]
      simp [received, RecvCall.bytes]
    | closed =>
      obtain ⟨rfl, rfl⟩ := run_of_returned rfl hrest
      cases hreturned
      rw [recvAll, if_neg hmore]
      simp [received, RecvCall.bytes]
    | gaveUp hretries =>
      obtain ⟨rfl, rfl⟩ := run_of_returned rfl hrest
      cases hreturned
      rw [recvAll, if_neg hmore]
      simp [received, RecvCall.bytes, hretries, hgot]
    | retried hnext =>
      have hretry : ¬loop.retry + 1 ≥ recvMaxRetry := not_le.mpr hnext.retry_lt
      rw [recvAll, if_neg hmore]
      simp only [if_neg hretry]
      exact ih hnext hgot hrest
    | @filled chunk next hchunk hall hbuf hdone =>
      obtain ⟨rfl, rfl⟩ := run_of_returned hdone hrest
      cases hdone.symm.trans hreturned
      have hlength : (got ++ chunk).length = size := by
        rw [List.length_append]
        omega
      rw [recvAll_returned hmore hchunk (by omega), recvAll_of_le (by omega), received_singleton,
        hlength]
      rfl
    | @stored chunk next hchunk hbuf hp hretry hnext =>
      have hnextTotal := hnext.total_eq
      have hread : (got ++ chunk).length = next.p := by
        rw [List.length_append]
        omega
      have hadvanced := ih hnext hread hrest
      rw [recvAll_returned hmore hchunk (by omega), ← hretry]
      rw [List.append_assoc] at hadvanced
      exact hadvanced

/-- What `recv_all` came to after the results `calls`: its return code and the buffer, which was
`initial` before. -/
structure Exact (initial : Bytes) (calls : List RecvCall) (rc : ℤ) (buf : Bytes) : Prop where
  errors_le : calls.count .again ≤ recvMaxRetry
  buf_eq : buf = received calls ++ initial.drop (received calls).length
  length_eq : buf.length = initial.length
  complete : rc = initial.length ↔ buf = received calls
  failed : rc = -1 ↔ .failed ∈ calls
  closed : rc = -2 ↔ .returned [] ∈ calls
  otherwise : .failed ∉ calls → .returned [] ∉ calls → rc = (received calls).length

/-- Assumes: a buffer that is not empty, and a run of turns from the start after which the loop has
returned. What was received and what is returned then. -/
theorem exact_of_run {buf : Bytes} (hbuf : buf ≠ [])
    (hrun : runFrom (step buf.length) (start buf) calls = some final)
    (hreturned : final.returned = some rc) : Exact buf calls rc final.buf := by
  have htransferred := (running_start hbuf).transferred hrun hreturned
  have hle : (received calls).length ≤ buf.length := htransferred.received_le
  have hwritten : final.buf = received calls ++ buf.drop (received calls).length := by
    rw [htransferred.buf_eq, writeAt]
    simp [start]
  have hlength : final.buf.length = buf.length := by
    rw [hwritten, List.length_append, List.length_drop]
    omega
  have hcomplete : rc = buf.length ↔ (received calls).length = buf.length := htransferred.complete
  exact {
    errors_le := (Nat.zero_add _).symm.trans_le htransferred.errors_le
    buf_eq := hwritten
    length_eq := hlength
    complete := by
      rw [hcomplete]
      constructor
      · intro hall
        rw [hwritten, hall, List.drop_length, List.append_nil]
      · intro hfilled
        rw [← hfilled, hlength]
    failed := htransferred.failed
    closed := htransferred.closed
    otherwise := fun hnoFailure hnoClose ↦
      (htransferred.otherwise hnoFailure hnoClose).trans (zero_add _) }

end RecvLoop

/-! ### Both loops -/

/-- Assumes: some data and a buffer that is not empty, and system calls that return no more than
they were offered. Both loops end, after a bounded number of turns, each with a region within the
data or the buffer. `send_with_retry_` has given the socket a beginning of the data, and `recv_all`
has filled a beginning of the buffer with what it received and left the rest as it was; what they
return says whether all was transferred. -/
theorem transfer_exact {data buf : Bytes} (hdata : data ≠ []) (hbuf : buf ≠ []) (maxRetry : ℤ)
    (sends : ℕ → SendCall) (recvs : ℕ → RecvCall)
    (hsends : ∀ k loop,
      runFrom (SendLoop.step data maxRetry) (.start data) (firstActions sends k) = some loop →
        loop.ended = false → loop.CanReturn (sends k))
    (hrecvs : ∀ k loop,
      runFrom (RecvLoop.step buf.length) (.start buf) (firstActions recvs k) = some loop →
        loop.returned = none → loop.CanReturn (recvs k)) :
    (∃ k ≤ data.length * max 1 maxRetry.toNat, ∃ final,
      runFrom (SendLoop.step data maxRetry) (.start data) (firstActions sends k) = some final ∧
        final.ended = true ∧
        SendLoop.Exact data maxRetry ((firstActions sends k).count .again) (firstActions sends k)
          final) ∧
      ∃ k ≤ buf.length + recvMaxRetry, ∃ final rc,
        runFrom (RecvLoop.step buf.length) (.start buf) (firstActions recvs k) = some final ∧
          final.returned = some rc ∧ RecvLoop.Exact buf (firstActions recvs k) rc final.buf := by
  constructor
  · obtain ⟨k, hk, final, hrun, hended⟩ := SendLoop.exists_left hdata maxRetry hsends
    have hexact : SendLoop.Exact data maxRetry (0 + (firstActions sends k).count .again) _ _ :=
      (SendLoop.running_start hdata maxRetry).exact hrun hended
    rw [Nat.zero_add] at hexact
    exact ⟨k, hk, final, hrun, hended, hexact⟩
  · obtain ⟨k, hk, final, rc, hrun, hreturned⟩ := RecvLoop.exists_left hbuf hrecvs
    exact ⟨k, hk, final, rc, hrun, hreturned, RecvLoop.exact_of_run hbuf hrun hreturned⟩

/-- The results of a socket that takes one byte, asks for a retry and then fails. -/
def failingSends : ℕ → SendCall
  | 0 => .returned 1
  | 1 => .again
  | _ => .failed

/-- The results of a socket that gives one byte, asks for a retry and is then closed by the peer. -/
def closingRecvs : ℕ → RecvCall
  | 0 => .returned [7#8]
  | 1 => .again
  | _ => .returned []

/-- Two bytes to a socket that fails after the first, and two bytes from a peer that closes. -/
theorem transfer_exact_short :
    (∃ k ≤ 4, ∃ final,
      runFrom (SendLoop.step [1#8, 2#8] 2) (.start [1#8, 2#8]) (firstActions failingSends k) =
        some final ∧ final.ended = true) ∧
      ∃ k ≤ 52, ∃ final rc,
        runFrom (RecvLoop.step 2) (.start [0#8, 0#8]) (firstActions closingRecvs k) = some final ∧
          final.returned = some rc ∧
            RecvLoop.Exact [0#8, 0#8] (firstActions closingRecvs k) rc final.buf := by
  have hsends : ∀ k loop,
      runFrom (SendLoop.step [1#8, 2#8] 2) (.start [1#8, 2#8]) (firstActions failingSends k) =
        some loop → loop.ended = false → loop.CanReturn (failingSends k) := by
    rintro (_ | _ | k) loop hrun -
    · cases hrun
      exact one_le_two
    all_goals trivial
  have hrecvs : ∀ k loop,
      runFrom (RecvLoop.step 2) (.start [0#8, 0#8]) (firstActions closingRecvs k) = some loop →
        loop.returned = none → loop.CanReturn (closingRecvs k) := by
    rintro (_ | _ | k) loop hrun -
    · cases hrun
      exact one_le_two
    · trivial
    · exact Nat.zero_le _
  obtain ⟨⟨k, hk, final, hrun, hended, -⟩, hreceived⟩ :=
    transfer_exact (List.cons_ne_nil 1#8 [2#8]) (List.cons_ne_nil 0#8 [0#8]) 2 failingSends
      closingRecvs hsends hrecvs
  exact ⟨⟨k, hk, final, hrun, hended⟩, hreceived⟩

end TszyUlt.Zbf
