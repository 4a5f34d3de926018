import Aa2acp.Bridge.WorkerProtocol

/-!
# Sessions of the CarPlay worker

Whatever the daemon and its worker process do in whatever order, they agree on the session that
is on (`Control`): its request, the session itself or its result is there, and only one of
them.  So a call returns what its own session returned (`sessions_of_run`), a stop is for the
session that the daemon meant, and confirmations and answers come up in order
(`messages_of_run`).
-/

namespace Aa2acp
namespace Bridge
namespace CarPlayWorker

/-! ## Messages come back -/

/-- The sizes that the senders keep to. -/
def Request.Fits : Request → Prop
  | .run _ arguments => (marshal arguments).length ≤ 8192
  | .stop => True
  | .answer confirmation _ => confirmation.length = 32

def Reply.Fits : Reply → Prop
  | .confirmation message => message.length = 32
  | .result value => -2 ^ 31 ≤ value ∧ value < 2 ^ 31

theorem readRequest_stop (buffer : Bytes) :
    readRequest (received Request.stop.bytes buffer) Request.stop.bytes.length = .stop := rfl

theorem readRequest_answer {confirmation : Bytes} (h : confirmation.length = 32) (confirmed : Bool)
    (buffer : Bytes) :
    readRequest (received (Request.answer confirmation confirmed).bytes buffer)
      (Request.answer confirmation confirmed).bytes.length = .answer confirmation confirmed := by
  have hlength : (Request.answer confirmation confirmed).bytes.length = 1 + 32 + 1 := by
    simp [Request.bytes, h]
  have hbuffer : received (Request.answer confirmation confirmed).bytes buffer =
      0x04 :: (confirmation ++ (if confirmed then 0x01 else 0x00) :: buffer.drop 34) := by
    rw [received_eq (by omega), hlength]
    simp [Request.bytes]
  rw [hlength, hbuffer]
  unfold readRequest
  have htake : (confirmation ++ (if confirmed then 0x01 else 0x00) :: buffer.drop 34).take 32 =
      confirmation := by
    rw [← h, List.take_left]
  have hlast : (0x04 :: (confirmation ++ (if confirmed then 0x01 else 0x00) :: buffer.drop 34)).getD
      (1 + 32) 0 = if confirmed then 0x01 else 0x00 := by
    rw [← h, Nat.add_comm, List.getD_cons_succ, List.getD_append_right _ _ _ _ (Nat.le_refl _),
      Nat.sub_self, List.getD_cons_zero]
  rw [hlast]
  simp only [List.getD_cons_zero, List.drop_succ_cons, List.drop_zero, htake]
  cases confirmed <;> rfl

/-- The worker process cuts the message at its zeros; arguments without one come back. -/
theorem readRequest_run {arguments : List Bytes} (hfits : (marshal arguments).length ≤ 8192)
    (number : ℕ) (buffer : Bytes) :
    ∃ cut, readRequest (received (Request.run number arguments).bytes buffer)
        (Request.run number arguments).bytes.length = .run cut ∧
      ((∀ argument ∈ arguments, 0x00 ∉ argument) → cut = arguments) := by
  refine ⟨cutArguments (received (marshal arguments) buffer) (marshal arguments).length, ?_, ?_⟩
  · show readRequest (received (marshal arguments) buffer) (marshal arguments).length = _
    have hfirst : (received (marshal arguments) buffer).getD 0 0 = 0x01 := by
      rw [received_eq hfits]
      rfl
    unfold readRequest
    rw [hfirst]
    rfl
  · intro hzero
    have hread := readRequest_marshal hzero hfits buffer
    have hfirst : (received (marshal arguments) buffer).getD 0 0 = 0x01 := by
      rw [received_eq hfits]
      rfl
    unfold readRequest at hread
    rw [hfirst] at hread
    exact WorkerCommand.run.inj hread

theorem intOf_littleEndian {value : ℤ} (h : -2 ^ 31 ≤ value ∧ value < 2 ^ 31) :
    intOf (littleEndian 4 (value % 2 ^ 32).toNat) = value := by
  have hlt : (value % 2 ^ 32).toNat < 256 ^ 4 := by omega
  unfold intOf
  rw [ofLittleEndian_littleEndian hlt]
  split <;> omega

theorem readReply_bytes {reply : Reply} (h : reply.Fits) : readReply reply.bytes = some reply := by
  cases reply with
  | confirmation message =>
      have hlength : (Reply.confirmation message).bytes.length = 1 + 32 := by
        rw [Reply.bytes, List.length_cons, h, Nat.add_comm]
      unfold readReply
      rw [if_pos ⟨rfl, hlength⟩]
      rfl
  | result value =>
      have hlength : (Reply.result value).bytes.length = 1 + 4 := by
        rw [Reply.bytes, List.length_cons, length_littleEndian]
      unfold readReply
      rw [if_neg (by rintro ⟨hfirst, -⟩; cases hfirst), if_pos ⟨hlength, rfl⟩]
      show some (Reply.result (intOf (littleEndian 4 (value % 2 ^ 32).toNat))) = _
      rw [intOf_littleEndian h]

/-! ## What a step can do -/

/-- The steps, with what a message that fits makes of them. -/
inductive Step : Event → State → State → Prop
  | refuse (s : State) (arguments : List Bytes) (accepted : Bool) (hidle : s.stage = .idle) :
      Step (.call arguments accepted) s
        { s with calls := s.calls ++ [arguments], returned := s.returned ++ [1], stage := .idle }
  | call (s : State) (arguments : List Bytes) (hidle : s.stage = .idle) (halive : s.alive = true)
      (hfits : (marshal arguments).length ≤ 8192) :
      Step (.call arguments true) s
        { s with
          stage := .running s.calls.length false
          requests := s.requests ++ [.run s.calls.length arguments]
          calls := s.calls ++ [arguments] }
  | stop (s : State) (number : ℕ) (hstage : s.stage = .running number false)
      (halive : s.alive = true) :
      Step .stop s
        { s with stage := .running number true, requests := s.requests ++ [.stop] }
  | stopDead (s : State) (number : ℕ) (hstage : s.stage = .running number false)
      (hdead : s.alive = false) : Step .stop s { s with stage := .running number true }
  | answer (s : State) (confirmation : Bytes) (confirmed : Bool) (halive : s.alive = true)
      (hlength : confirmation.length = 32) :
      Step (.answer confirmation confirmed) s
        { s with
          requests := s.requests ++ [.answer confirmation confirmed]
          answered := s.answered ++ [(confirmation, confirmed)] }
  | takeRun (s : State) (number : ℕ) (arguments cut : List Bytes) (requests : List Request)
      (buffer : Bytes) (hrequests : s.requests = .run number arguments :: requests)
      (hcut : (∀ argument ∈ arguments, 0x00 ∉ argument) → cut = arguments) :
      Step .take s
        { s with
          requests, buffer
          stopRequested := false
          sessions := s.sessions ++ [⟨number, cut⟩]
          started := s.started ++ [⟨number, cut⟩] }
  | takeStop (s : State) (requests : List Request) (buffer : Bytes)
      (hrequests : s.requests = .stop :: requests) :
      Step .take s { s with requests, buffer, stopRequested := true }
  | takeAnswer (s : State) (confirmation : Bytes) (confirmed : Bool) (requests : List Request)
      (buffer : Bytes) (hrequests : s.requests = .answer confirmation confirmed :: requests) :
      Step .take s { s with requests, buffer, given := s.given ++ [(confirmation, confirmed)] }
  | confirm (s : State) (number : ℕ) (confirmation : Bytes)
      (hsession : s.hasSession number = true) (hlength : confirmation.length = 32) :
      Step (.confirm number confirmation) s
        { s with
          replies := s.replies ++ [(number, .confirmation confirmation)]
          announced := s.announced ++ [(number, confirmation)] }
  | finish (s : State) (number : ℕ) (result : ℤ) (hsession : s.hasSession number = true)
      (hresult : -2 ^ 31 ≤ result ∧ result < 2 ^ 31) :
      Step (.finish number result) s
        { s with
          sessions := s.sessions.filter (·.number ≠ number)
          replies := s.replies ++ [(number, .result result)]
          finished := s.finished ++ [(number, result)] }
  | exit (s : State) (halive : s.alive = true) :
      Step .exit s { s with alive := false, requests := [], sessions := [] }
  | showConfirmation (s : State) (number origin : ℕ) (stopping : Bool) (confirmation : Bytes)
      (replies : List (ℕ × Reply)) (hstage : s.stage = .running number stopping)
      (hreplies : s.replies = (origin, .confirmation confirmation) :: replies) :
      Step .receive s { s with replies, shown := s.shown ++ [(number, confirmation)] }
  | result (s : State) (number origin : ℕ) (stopping : Bool) (result : ℤ)
      (replies : List (ℕ × Reply)) (hstage : s.stage = .running number stopping)
      (hreplies : s.replies = (origin, .result result) :: replies) :
      Step .receive s { s with replies, returned := s.returned ++ [result], stage := .idle }
  | lose (s : State) (number : ℕ) (stopping : Bool) (hstage : s.stage = .running number stopping)
      (hdead : s.alive = false) :
      Step .lose s { s with returned := s.returned ++ [1], stage := .idle }

/-- The messages on their way have the sizes that the readers expect. -/
structure Sized (s : State) : Prop where
  requests : ∀ request ∈ s.requests, request.Fits
  replies : ∀ reply ∈ s.replies, reply.2.Fits

variable {event : Event} {s s' : State}

theorem startRequest_true (arguments : List Bytes) (accepted : Bool) :
    (startRequest true accepted arguments).result = some 1 ∨
      ((startRequest true accepted arguments).result = none ∧ accepted = true ∧
        (marshal arguments).length ≤ 8192) := by
  unfold startRequest
  rw [if_neg (by simp)]
  split
  · exact Or.inl rfl
  · rename_i hlength
    split
    · exact Or.inr ⟨rfl, ‹_›, Nat.not_lt.mp hlength⟩
    · exact Or.inl rfl

theorem step_cases (hsized : Sized s) (hstep : step event s = some s') : Step event s s' := by
  cases event with
  | call arguments accepted =>
      simp only [step] at hstep
      split at hstep
      · rename_i hcall
        obtain ⟨hidle, halive⟩ := hcall
        rcases startRequest_true arguments accepted with
          hstart | ⟨hstart, haccepted, hfits⟩
        · rw [hstart] at hstep
          cases hstep
          exact .refuse s arguments accepted hidle
        · rw [hstart] at hstep
          cases hstep
          cases haccepted
          exact .call s arguments hidle (halive rfl) hfits
      · cases hstep
  | stop =>
      simp only [step] at hstep
      split at hstep
      · rename_i number hstage
        cases hstep
        unfold State.send
        split
        · exact .stop s number hstage ‹_›
        · exact .stopDead s number hstage (Bool.eq_false_iff.mpr ‹_›)
      · cases hstep
  | answer confirmation confirmed =>
      simp only [step] at hstep
      split at hstep
      · rename_i hanswer
        obtain ⟨halive, hlength⟩ := hanswer
        cases hstep
        unfold State.send
        rw [if_pos halive]
        exact .answer s confirmation confirmed halive hlength
      · cases hstep
  | take =>
      simp only [step] at hstep
      split at hstep
      · cases hstep
      · rename_i request requests hrequests
        have hfits : request.Fits := hsized.requests request (by rw [hrequests]; exact List.mem_cons_self)
        cases hstep
        cases request with
        | run number arguments =>
            obtain ⟨cut, hread, hcut⟩ := readRequest_run hfits number s.buffer
            rw [hread]
            exact .takeRun s number arguments cut requests _ hrequests hcut
        | stop => exact .takeStop s requests _ hrequests
        | answer confirmation confirmed =>
            rw [readRequest_answer hfits]
            exact .takeAnswer s confirmation confirmed requests _ hrequests
  | confirm number confirmation =>
      simp only [step] at hstep
      split at hstep
      · rename_i hconfirm
        cases hstep
        exact .confirm s number confirmation hconfirm.1 hconfirm.2
      · cases hstep
  | finish number result =>
      simp only [step] at hstep
      split at hstep
      · rename_i hfinish
        cases hstep
        exact .finish s number result hfinish.1 hfinish.2
      · cases hstep
  | exit =>
      simp only [step] at hstep
      split at hstep
      · rename_i halive
        cases hstep
        exact .exit s halive
      · cases hstep
  | receive =>
      simp only [step] at hstep
      split at hstep
      · rename_i number stopping reply replies hstage hreplies
        have hfits : reply.2.Fits := hsized.replies reply (by rw [hreplies]; exact List.mem_cons_self)
        cases hstep
        rw [readReply_bytes hfits]
        obtain ⟨origin, reply⟩ := reply
        cases reply with
        | confirmation message => exact .showConfirmation s number origin stopping message replies hstage hreplies
        | result value => exact .result s number origin stopping value replies hstage hreplies
      · cases hstep
  | lose =>
      simp only [step] at hstep
      split at hstep
      · rename_i number stopping hstage
        split at hstep
        · cases hstep
        · cases hstep
          exact .lose s number stopping hstage (Bool.eq_false_iff.mpr ‹_›)
      · cases hstep

theorem sized_start : Sized {} := ⟨by simp, by simp⟩

theorem Sized.step (h : Sized s) (hstep : Step event s s') : Sized s' := by
  have hlater : ∀ {request requests}, s.requests = request :: requests →
      ∀ other ∈ requests, Request.Fits other := by
    intro request requests hrequests other hother
    exact h.requests other (hrequests ▸ List.mem_cons_of_mem _ hother)
  cases hstep with
  | refuse | stopDead | lose => exact ⟨h.requests, h.replies⟩
  | call s arguments hidle halive hfits =>
      exact ⟨List.forall_mem_append.mpr ⟨h.requests, by simpa [Request.Fits] using hfits⟩, h.replies⟩
  | stop => exact ⟨List.forall_mem_append.mpr ⟨h.requests, by simp [Request.Fits]⟩, h.replies⟩
  | answer s confirmation confirmed halive hlength =>
      exact ⟨List.forall_mem_append.mpr ⟨h.requests, by simpa [Request.Fits] using hlength⟩, h.replies⟩
  | takeRun s number arguments cut requests buffer hrequests => exact ⟨hlater hrequests, h.replies⟩
  | takeStop s requests buffer hrequests => exact ⟨hlater hrequests, h.replies⟩
  | takeAnswer s confirmation confirmed requests buffer hrequests => exact ⟨hlater hrequests, h.replies⟩
  | confirm s number confirmation hsession hlength =>
      exact ⟨h.requests, List.forall_mem_append.mpr ⟨h.replies, by simpa [Reply.Fits] using hlength⟩⟩
  | finish s number result hsession hresult =>
      exact ⟨h.requests, List.forall_mem_append.mpr ⟨h.replies, by simpa [Reply.Fits] using hresult⟩⟩
  | exit => exact ⟨by simp, h.replies⟩
  | showConfirmation s number origin stopping confirmation replies hstage hreplies =>
      exact ⟨h.requests, fun reply hreply => h.replies reply (hreplies ▸ List.mem_cons_of_mem _ hreply)⟩
  | result s number origin stopping result replies hstage hreplies =>
      exact ⟨h.requests, fun reply hreply => h.replies reply (hreplies ▸ List.mem_cons_of_mem _ hreply)⟩

/-! ## Where a session is -/

/-- No session is asked for. -/
def NoRun (requests : List Request) : Prop := ∀ request ∈ requests, request.number? = none

/-- A message of a session that is not its result. -/
def IsConfirmation (number : ℕ) (reply : ℕ × Reply) : Prop :=
  ∃ confirmation, reply = (number, .confirmation confirmation)

/-- What the connection and the worker process hold for the call that waits: its request, its
session or its result.  A stop that comes after the request is for this session. -/
inductive Underway (number : ℕ) (stopping : Prop) (s : State) : Prop
  | waiting (before after : List Request) (arguments : List Bytes)
      (hrequests : s.requests = before ++ .run number arguments :: after)
      (hbefore : NoRun before) (hafter : NoRun after) (hstop : stopping ↔ .stop ∈ after)
      (hasked : s.calls[number]? = some arguments) (hsessions : s.sessions = [])
      (hreplies : s.replies = []) (hstarted : ∀ session ∈ s.started, session.number < number)
      (hfinished : ∀ entry ∈ s.finished, entry.1 < number)
  | active (arguments : List Bytes) (hrequests : NoRun s.requests)
      (hstop : stopping ↔ s.stopRequested = true ∨ .stop ∈ s.requests)
      (hsessions : s.sessions = [⟨number, arguments⟩])
      (hreplies : ∀ reply ∈ s.replies, IsConfirmation number reply)
      (hfinished : ∀ entry ∈ s.finished, entry.1 < number)
  | ended (earlier : List (ℕ × Reply)) (result : ℤ) (hrequests : NoRun s.requests)
      (hsessions : s.sessions = []) (hreplies : s.replies = earlier ++ [(number, .result result)])
      (hearlier : ∀ reply ∈ earlier, IsConfirmation number reply)
      (hfinished : (number, result) ∈ s.finished)

section

variable {number : ℕ} {stopping : Prop} {requests : List Request} {request : Request}

theorem NoRun.append_singleton (h : NoRun requests) (hrequest : request.number? = none) :
    NoRun (requests ++ [request]) :=
  List.forall_mem_append.mpr ⟨h, by simpa using hrequest⟩

theorem NoRun.tail (h : NoRun (request :: requests)) : NoRun requests :=
  fun other hother => h other (List.mem_cons_of_mem _ hother)

/-- The daemon sends a stop or an answer. -/
theorem Underway.send (h : Underway number stopping s) (hrequest : request.number? = none)
    (stage : Stage) (answered : List (Bytes × Bool)) :
    Underway number (stopping ∨ request = .stop)
      { s with stage, requests := s.requests ++ [request], answered } := by
  have hmem : ∀ requests : List Request, Request.stop ∈ requests ++ [request] ↔
      .stop ∈ requests ∨ request = .stop := by
    intro requests
    rw [List.mem_append, List.mem_singleton, eq_comm (a := request)]
  cases h with
  | waiting before after arguments hrequests hbefore hafter hstop hasked hsessions hreplies hstarted
      hfinished =>
      refine .waiting before (after ++ [request]) arguments ?_ hbefore
        (hafter.append_singleton hrequest) ?_ hasked hsessions hreplies hstarted hfinished
      · rw [hrequests, List.append_assoc, List.cons_append]
      · rw [hmem, hstop]
  | active arguments hrequests hstop hsessions hreplies hfinished =>
      refine .active arguments (hrequests.append_singleton hrequest) ?_ hsessions hreplies hfinished
      rw [hmem, hstop, or_assoc]
  | ended earlier result hrequests hsessions hreplies hearlier hfinished =>
      exact .ended earlier result (hrequests.append_singleton hrequest) hsessions hreplies hearlier
        hfinished

/-- The worker process receives a stop or an answer. -/
theorem Underway.pop (h : Underway number stopping s) (hrequests : s.requests = request :: requests)
    (hrequest : request.number? = none) {flag : Bool}
    (hflag : flag = true ↔ s.stopRequested = true ∨ request = .stop) (buffer : Bytes)
    (given : List (Bytes × Bool)) :
    Underway number stopping { s with requests, buffer, stopRequested := flag, given } := by
  cases h with
  | waiting before after arguments hrequests' hbefore hafter hstop hasked hsessions hreplies hstarted
      hfinished =>
      rw [hrequests'] at hrequests
      cases before with
      | nil =>
          obtain ⟨rfl, -⟩ := List.cons.inj hrequests
          cases hrequest
      | cons first before =>
          obtain ⟨-, hrest⟩ := List.cons.inj hrequests
          exact .waiting before after arguments hrest.symm hbefore.tail hafter hstop hasked hsessions
            hreplies hstarted hfinished
  | active arguments hrequests' hstop hsessions hreplies hfinished =>
      rw [hrequests] at hrequests' hstop
      refine .active arguments hrequests'.tail ?_ hsessions hreplies hfinished
      rw [hstop, hflag, List.mem_cons, or_assoc, eq_comm (a := request)]
  | ended earlier result hrequests' hsessions hreplies hearlier hfinished =>
      rw [hrequests] at hrequests'
      exact .ended earlier result hrequests'.tail hsessions hreplies hearlier hfinished

/-- The worker process begins the session. -/
theorem Underway.begin (h : Underway number stopping s) {number' : ℕ} {arguments : List Bytes}
    (hrequests : s.requests = .run number' arguments :: requests) (cut : List Bytes) (buffer : Bytes) :
    number' = number ∧ s.calls[number]? = some arguments ∧ s.sessions = [] ∧
      (∀ session ∈ s.started, session.number < number) ∧
      Underway number stopping
        { s with
          requests, buffer
          stopRequested := false
          sessions := s.sessions ++ [⟨number', cut⟩]
          started := s.started ++ [⟨number', cut⟩] } := by
  cases h with
  | waiting before after arguments' hrequests' hbefore hafter hstop hasked hsessions hreplies hstarted
      hfinished =>
      rw [hrequests'] at hrequests
      cases before with
      | nil =>
          obtain ⟨hrun, rfl⟩ := List.cons.inj hrequests
          cases hrun
          refine ⟨rfl, hasked, hsessions, hstarted, ?_⟩
          refine .active cut hafter ?_ ?_ ?_ hfinished
          · simpa using hstop
          · simp [hsessions]
          · simp [hreplies]
      | cons first before =>
          obtain ⟨rfl, -⟩ := List.cons.inj hrequests
          exact absurd (hbefore _ List.mem_cons_self) (by simp [Request.number?])
  | active arguments' hrequests' =>
      rw [hrequests] at hrequests'
      exact absurd (hrequests' _ List.mem_cons_self) (by simp [Request.number?])
  | ended earlier result hrequests' =>
      rw [hrequests] at hrequests'
      exact absurd (hrequests' _ List.mem_cons_self) (by simp [Request.number?])

/-- Only the session of the call that waits is there. -/
theorem Underway.hasSession (h : Underway number stopping s) {number' : ℕ}
    (hsession : s.hasSession number' = true) :
    number' = number ∧ NoRun s.requests ∧
      (stopping ↔ s.stopRequested = true ∨ .stop ∈ s.requests) ∧
      (∃ arguments, s.sessions = [⟨number, arguments⟩]) ∧
      (∀ reply ∈ s.replies, IsConfirmation number reply) ∧
      ∀ entry ∈ s.finished, entry.1 < number := by
  unfold State.hasSession at hsession
  cases h with
  | waiting before after arguments hrequests hbefore hafter hstop hasked hsessions =>
      rw [hsessions] at hsession
      cases hsession
  | active arguments hrequests hstop hsessions hreplies hfinished =>
      rw [hsessions, List.any_cons, List.any_nil, Bool.or_false, decide_eq_true_eq] at hsession
      exact ⟨hsession.symm, hrequests, hstop, ⟨arguments, hsessions⟩, hreplies, hfinished⟩
  | ended earlier result hrequests hsessions =>
      rw [hsessions] at hsession
      cases hsession

/-- What arrives is of the session that the call waits for. -/
theorem Underway.replies (h : Underway number stopping s) :
    ∀ reply ∈ s.replies, reply.1 = number ∧
      ∀ result, reply.2 = .result result → (number, result) ∈ s.finished := by
  have hconfirmation : ∀ reply, IsConfirmation number reply → reply.1 = number ∧
      ∀ result, reply.2 = .result result → (number, result) ∈ s.finished := by
    rintro reply ⟨confirmation, rfl⟩
    refine ⟨rfl, ?_⟩
    intro result hresult
    cases hresult
  cases h with
  | waiting before after arguments hrequests hbefore hafter hstop hasked hsessions hreplies =>
      simp [hreplies]
  | active arguments hrequests hstop hsessions hreplies =>
      exact fun reply hreply => hconfirmation reply (hreplies reply hreply)
  | ended earlier result hrequests hsessions hreplies hearlier hfinished =>
      rw [hreplies]
      refine List.forall_mem_append.mpr
        ⟨fun reply hreply => hconfirmation reply (hearlier reply hreply), ?_⟩
      rw [List.forall_mem_singleton]
      refine ⟨rfl, ?_⟩
      intro result' hresult
      cases hresult
      exact hfinished

/-- The daemon receives a confirmation. -/
theorem Underway.shown (h : Underway number stopping s) {origin : ℕ} {confirmation : Bytes}
    {replies : List (ℕ × Reply)}
    (hreplies : s.replies = (origin, .confirmation confirmation) :: replies)
    (shown : List (ℕ × Bytes)) : Underway number stopping { s with replies, shown } := by
  cases h with
  | waiting before after arguments hrequests hbefore hafter hstop hasked hsessions hreplies' =>
      rw [hreplies'] at hreplies
      cases hreplies
  | active arguments hrequests hstop hsessions hreplies' hfinished =>
      rw [hreplies] at hreplies'
      exact .active arguments hrequests hstop hsessions (List.forall_mem_cons.mp hreplies').2 hfinished
  | ended earlier result hrequests hsessions hreplies' hearlier hfinished =>
      rw [hreplies'] at hreplies
      cases earlier with
      | nil => cases hreplies
      | cons first earlier =>
          obtain ⟨-, hrest⟩ := List.cons.inj hreplies
          exact .ended earlier result hrequests hsessions hrest.symm
            (List.forall_mem_cons.mp hearlier).2 hfinished

/-- The result is the last that arrives of a session. -/
theorem Underway.result (h : Underway number stopping s) {origin : ℕ} {result : ℤ}
    {replies : List (ℕ × Reply)} (hreplies : s.replies = (origin, .result result) :: replies) :
    replies = [] ∧ s.sessions = [] ∧ NoRun s.requests ∧ (number, result) ∈ s.finished := by
  cases h with
  | waiting before after arguments hrequests hbefore hafter hstop hasked hsessions hreplies' =>
      rw [hreplies'] at hreplies
      cases hreplies
  | active arguments hrequests hstop hsessions hreplies' hfinished =>
      obtain ⟨confirmation, hreply⟩ := hreplies' _ (hreplies ▸ List.mem_cons_self)
      cases hreply
  | ended earlier result' hrequests hsessions hreplies' hearlier hfinished =>
      rw [hreplies'] at hreplies
      cases earlier with
      | nil =>
          cases hreplies
          exact ⟨rfl, hsessions, hrequests, hfinished⟩
      | cons first earlier =>
          obtain ⟨rfl, -⟩ := List.cons.inj hreplies
          obtain ⟨confirmation, hreply⟩ := hearlier _ List.mem_cons_self
          cases hreply

end

/-! ## Every run -/

/-- Every call but the one that waits has returned. -/
def Counted (s : State) : Prop :=
  match s.stage with
  | .idle => s.returned.length = s.calls.length
  | .running number _ => s.returned.length = number ∧ s.calls.length = number + 1

/-- The two processes agree on the session that is on. -/
structure Control (s : State) : Prop where
  sized : Sized s
  counted : Counted s
  dead : s.alive = false → s.sessions = [] ∧ s.requests = []
  idle : s.alive = true → s.stage = .idle → s.sessions = [] ∧ s.replies = [] ∧ NoRun s.requests
  underway : s.alive = true → ∀ number stopping, s.stage = .running number stopping →
    Underway number (stopping = true) s
  replies : ∀ number stopping, s.stage = .running number stopping → ∀ reply ∈ s.replies,
    reply.1 = number ∧ ∀ result, reply.2 = .result result → (number, result) ∈ s.finished
  started : ∀ session ∈ s.started, session.number < s.calls.length
  finished : ∀ entry ∈ s.finished, entry.1 < s.calls.length

theorem control_start : Control {} where
  sized := sized_start
  counted := rfl
  dead _ := ⟨rfl, rfl⟩
  idle _ _ := ⟨rfl, rfl, by simp [NoRun]⟩
  underway _ _ _ hstage := by cases hstage
  replies _ _ hstage := by cases hstage
  started := by simp
  finished := by simp

theorem Control.alive (h : Control s) {request : Request} {requests : List Request}
    (hrequests : s.requests = request :: requests) : s.alive = true := by
  by_contra hdead
  rw [(h.dead (Bool.eq_false_iff.mpr hdead)).2] at hrequests
  cases hrequests

/-- A call waits for the session that is there. -/
theorem Control.session (h : Control s) {number : ℕ} (hsession : s.hasSession number = true) :
    s.alive = true ∧ ∃ stopping, s.stage = .running number stopping := by
  have hsome : s.sessions ≠ [] := by
    intro hnone
    unfold State.hasSession at hsession
    rw [hnone] at hsession
    cases hsession
  have halive : s.alive = true := by
    by_contra hdead
    exact hsome (h.dead (Bool.eq_false_iff.mpr hdead)).1
  cases hstage : s.stage with
  | idle => exact absurd (h.idle halive hstage).1 hsome
  | running number' stopping =>
      obtain ⟨rfl, -⟩ := (h.underway halive number' stopping hstage).hasSession hsession
      exact ⟨halive, stopping, rfl⟩

/-- A call waits for the session that is asked for. -/
theorem Control.stage_of_run (h : Control s) {number : ℕ} {arguments : List Bytes}
    {requests : List Request} (hrequests : s.requests = .run number arguments :: requests) :
    s.alive = true ∧ ∃ stopping, s.stage = .running number stopping := by
  have halive := h.alive hrequests
  cases hstage : s.stage with
  | idle =>
      have hnone := (h.idle halive hstage).2.2
      rw [hrequests] at hnone
      exact absurd (hnone _ List.mem_cons_self) (by simp [Request.number?])
  | running number' stopping =>
      obtain ⟨rfl, -⟩ := (h.underway halive number' stopping hstage).begin hrequests [] []
      exact ⟨halive, stopping, rfl⟩

theorem Control.counted_idle (h : Control s) (hidle : s.stage = .idle) :
    s.returned.length = s.calls.length := by
  have hcounted := h.counted
  rwa [Counted, hidle] at hcounted

theorem Control.counted_running (h : Control s) {number : ℕ} {stopping : Bool}
    (hstage : s.stage = .running number stopping) :
    s.returned.length = number ∧ s.calls.length = number + 1 := by
  have hcounted := h.counted
  rwa [Counted, hstage] at hcounted

theorem Control.step (h : Control s) (hstep : Step event s s') : Control s' := by
  have hsized := h.sized.step hstep
  cases hstep with
  | refuse s arguments accepted hidle =>
      refine ⟨hsized, ?_, h.dead, fun halive _ => h.idle halive hidle, ?_, ?_, ?_, ?_⟩
      · simp [Counted, h.counted_idle hidle]
      · intro _ number stopping hstage
        cases hstage
      · intro number stopping hstage
        cases hstage
      · intro session hsession
        exact (h.started session hsession).trans (by simp)
      · intro entry hentry
        exact (h.finished entry hentry).trans (by simp)
  | call s arguments hidle halive hfits =>
      obtain ⟨hsessions, hreplies, hrequests⟩ := h.idle halive hidle
      refine ⟨hsized, ?_, ?_, ?_, ?_, ?_, ?_, ?_⟩
      · simp [Counted, h.counted_idle hidle]
      · intro hdead
        rw [halive] at hdead
        cases hdead
      · intro _ hstage
        cases hstage
      · intro _ number stopping hstage
        cases hstage
        refine .waiting s.requests [] arguments rfl hrequests ?_ ?_ ?_ hsessions hreplies h.started
          h.finished
        · simp [NoRun]
        · simp
        · simp
      · intro number stopping hstage reply hreply
        rw [hreplies] at hreply
        cases hreply
      · intro session hsession
        exact (h.started session hsession).trans (by simp)
      · intro entry hentry
        exact (h.finished entry hentry).trans (by simp)
  | stop s number hstage halive =>
      refine ⟨hsized, ?_, ?_, ?_, ?_, ?_, h.started, h.finished⟩
      · exact h.counted_running hstage
      · intro hdead
        rw [halive] at hdead
        cases hdead
      · intro _ hidle
        cases hidle
      · intro _ number' stopping hstage'
        cases hstage'
        have hsend := (h.underway halive number false hstage).send (rfl : Request.stop.number? = none)
          (.running number true) s.answered
        simpa using hsend
      · intro number' stopping hstage'
        cases hstage'
        exact h.replies number false hstage
  | stopDead s number hstage hdead =>
      refine ⟨hsized, ?_, h.dead, ?_, ?_, ?_, h.started, h.finished⟩
      · exact h.counted_running hstage
      · intro _ hidle
        cases hidle
      · intro halive
        rw [hdead] at halive
        cases halive
      · intro number' stopping hstage'
        cases hstage'
        exact h.replies number false hstage
  | answer s confirmation confirmed halive hlength =>
      refine ⟨hsized, h.counted, ?_, ?_, ?_, h.replies, h.started, h.finished⟩
      · intro hdead
        rw [halive] at hdead
        cases hdead
      · intro _ hidle
        obtain ⟨hsessions, hreplies, hrequests⟩ := h.idle halive hidle
        exact ⟨hsessions, hreplies, hrequests.append_singleton rfl⟩
      · intro _ number stopping hstage
        have hnone : (Request.answer confirmation confirmed).number? = none := rfl
        simpa using (h.underway halive number stopping hstage).send hnone s.stage
          (s.answered ++ [(confirmation, confirmed)])
  | takeRun s number arguments cut requests buffer hrequests hcut =>
      obtain ⟨halive, stopping, hstage⟩ := h.stage_of_run hrequests
      obtain ⟨-, -, -, -, hactive⟩ :=
        (h.underway halive number stopping hstage).begin hrequests cut buffer
      refine ⟨hsized, h.counted, ?_, ?_, ?_, h.replies, ?_, h.finished⟩
      · intro hdead
        rw [halive] at hdead
        cases hdead
      · intro _ hidle
        rw [hstage] at hidle
        cases hidle
      · intro _ number' stopping' hstage'
        rw [hstage] at hstage'
        cases hstage'
        exact hactive
      · refine List.forall_mem_append.mpr ⟨h.started, ?_⟩
        rw [List.forall_mem_singleton, (h.counted_running hstage).2]
        exact Nat.lt_succ_self _
  | takeStop s requests buffer hrequests =>
      have halive := h.alive hrequests
      refine ⟨hsized, h.counted, ?_, ?_, ?_, h.replies, h.started, h.finished⟩
      · intro hdead
        rw [halive] at hdead
        cases hdead
      · intro _ hidle
        obtain ⟨hsessions, hreplies, hnone⟩ := h.idle halive hidle
        rw [hrequests] at hnone
        exact ⟨hsessions, hreplies, hnone.tail⟩
      · intro _ number stopping hstage
        exact (h.underway halive number stopping hstage).pop hrequests rfl (by simp) buffer s.given
  | takeAnswer s confirmation confirmed requests buffer hrequests =>
      have halive := h.alive hrequests
      refine ⟨hsized, h.counted, ?_, ?_, ?_, h.replies, h.started, h.finished⟩
      · intro hdead
        rw [halive] at hdead
        cases hdead
      · intro _ hidle
        obtain ⟨hsessions, hreplies, hnone⟩ := h.idle halive hidle
        rw [hrequests] at hnone
        exact ⟨hsessions, hreplies, hnone.tail⟩
      · intro _ number stopping hstage
        exact (h.underway halive number stopping hstage).pop hrequests rfl (by simp) buffer
          (s.given ++ [(confirmation, confirmed)])
  | confirm s number confirmation hsession hlength =>
      obtain ⟨halive, stopping, hstage⟩ := h.session hsession
      obtain ⟨-, hrequests, hstop, ⟨arguments, hsessions⟩, hreplies, hfinished⟩ :=
        (h.underway halive number stopping hstage).hasSession hsession
      have hactive : ∀ reply ∈ s.replies ++ [(number, .confirmation confirmation)],
          IsConfirmation number reply :=
        List.forall_mem_append.mpr ⟨hreplies, by simp [IsConfirmation]⟩
      have hunderway : Underway number (stopping = true)
          { s with
            replies := s.replies ++ [(number, .confirmation confirmation)]
            announced := s.announced ++ [(number, confirmation)] } :=
        .active arguments hrequests hstop hsessions hactive hfinished
      refine ⟨hsized, h.counted, h.dead, ?_, ?_, ?_, h.started, h.finished⟩
      · intro _ hidle
        rw [hstage] at hidle
        cases hidle
      · intro _ number' stopping' hstage'
        rw [hstage] at hstage'
        cases hstage'
        exact hunderway
      · intro number' stopping' hstage'
        rw [hstage] at hstage'
        cases hstage'
        exact hunderway.replies
  | finish s number result hsession hresult =>
      obtain ⟨halive, stopping, hstage⟩ := h.session hsession
      obtain ⟨-, hrequests, hstop, ⟨arguments, hsessions⟩, hreplies, hfinished⟩ :=
        (h.underway halive number stopping hstage).hasSession hsession
      have hunderway : Underway number (stopping = true)
          { s with
            sessions := s.sessions.filter (·.number ≠ number)
            replies := s.replies ++ [(number, .result result)]
            finished := s.finished ++ [(number, result)] } :=
        .ended s.replies result hrequests (by simp [hsessions]) rfl hreplies (by simp)
      refine ⟨hsized, h.counted, ?_, ?_, ?_, ?_, h.started, ?_⟩
      · intro hdead
        rw [halive] at hdead
        cases hdead
      · intro _ hidle
        rw [hstage] at hidle
        cases hidle
      · intro _ number' stopping' hstage'
        rw [hstage] at hstage'
        cases hstage'
        exact hunderway
      · intro number' stopping' hstage'
        rw [hstage] at hstage'
        cases hstage'
        exact hunderway.replies
      · refine List.forall_mem_append.mpr ⟨h.finished, ?_⟩
        rw [List.forall_mem_singleton, (h.counted_running hstage).2]
        exact Nat.lt_succ_self _
  | exit s halive =>
      refine ⟨hsized, h.counted, fun _ => ⟨rfl, rfl⟩, ?_, ?_, h.replies, h.started, h.finished⟩
      · intro halive'
        cases halive'
      · intro halive'
        cases halive'
  | showConfirmation s number origin stopping confirmation replies hstage hreplies =>
      refine ⟨hsized, h.counted, h.dead, ?_, ?_, ?_, h.started, h.finished⟩
      · intro _ hidle
        rw [hstage] at hidle
        cases hidle
      · intro halive number' stopping' hstage'
        exact (h.underway halive number' stopping' hstage').shown hreplies _
      · intro number' stopping' hstage' reply hreply
        exact h.replies number' stopping' hstage' reply (hreplies ▸ List.mem_cons_of_mem _ hreply)
  | result s number origin stopping result replies hstage hreplies =>
      obtain ⟨hreturned, hcalls⟩ := h.counted_running hstage
      refine ⟨hsized, ?_, h.dead, ?_, ?_, ?_, h.started, h.finished⟩
      · simp [Counted, hreturned, hcalls]
      · intro halive _
        obtain ⟨hnone, hsessions, hrequests, -⟩ :=
          (h.underway halive number stopping hstage).result hreplies
        exact ⟨hsessions, hnone, hrequests⟩
      · intro _ number' stopping' hstage'
        cases hstage'
      · intro number' stopping' hstage'
        cases hstage'
  | lose s number stopping hstage hdead =>
      obtain ⟨hreturned, hcalls⟩ := h.counted_running hstage
      refine ⟨hsized, ?_, h.dead, ?_, ?_, ?_, h.started, h.finished⟩
      · simp [Counted, hreturned, hcalls]
      · intro halive
        rw [hdead] at halive
        cases halive
      · intro _ number' stopping' hstage'
        cases hstage'
      · intro number' stopping' hstage'
        cases hstage'

/-- What was called, begun, finished and returned. -/
structure Ledger (s : State) : Prop where
  started : s.started.Pairwise fun earlier later => earlier.number < later.number
  asked : ∀ session ∈ s.started, ∃ arguments, s.calls[session.number]? = some arguments ∧
    ((∀ argument ∈ arguments, 0x00 ∉ argument) → session.arguments = arguments)
  sessions : ∀ session ∈ s.sessions, session ∈ s.started
  finished : s.finished.Pairwise fun earlier later => earlier.1 < later.1
  ran : ∀ entry ∈ s.finished, ∃ session ∈ s.started, session.number = entry.1
  results : ∀ number result, s.returned[number]? = some result →
    result = 1 ∨ (number, result) ∈ s.finished
  kept : s.alive = true → ∀ entry ∈ s.finished, entry.1 < s.returned.length →
    s.returned[entry.1]? = some entry.2

theorem ledger_start : Ledger {} where
  started := List.Pairwise.nil
  asked := by simp
  sessions := by simp
  finished := List.Pairwise.nil
  ran := by simp
  results := by simp
  kept := by simp

theorem pairwise_concat {α : Type} {R : α → α → Prop} {items : List α} {last : α}
    (h : items.Pairwise R) (hlast : ∀ item ∈ items, R item last) : (items ++ [last]).Pairwise R := by
  refine List.pairwise_append.mpr ⟨h, List.pairwise_singleton _ _, ?_⟩
  intro item hitem other hother
  rw [List.mem_singleton.mp hother]
  exact hlast item hitem

/-- Another call does not change those before it. -/
theorem Ledger.asked_concat (h : Ledger s) (arguments' : List Bytes) :
    ∀ session ∈ s.started, ∃ arguments, (s.calls ++ [arguments'])[session.number]? = some arguments ∧
      ((∀ argument ∈ arguments, 0x00 ∉ argument) → session.arguments = arguments) := by
  intro session hsession
  obtain ⟨arguments, hasked, hsame⟩ := h.asked session hsession
  have hlt := (List.getElem?_eq_some_iff.mp hasked).1
  exact ⟨arguments, by rw [List.getElem?_append_left hlt, hasked], hsame⟩

/-- One more call returns. -/
theorem Ledger.returns (h : Ledger s) {result : ℤ}
    (hresult : result = 1 ∨ (s.returned.length, result) ∈ s.finished) :
    ∀ number result', (s.returned ++ [result])[number]? = some result' →
      result' = 1 ∨ (number, result') ∈ s.finished := by
  intro number result' hget
  rcases Nat.lt_trichotomy number s.returned.length with hlt | rfl | hgt
  · rw [List.getElem?_append_left hlt] at hget
    exact h.results number result' hget
  · rw [List.getElem?_concat_length] at hget
    cases hget
    exact hresult
  · rw [List.getElem?_eq_none (by simp; omega)] at hget
    cases hget

theorem Ledger.keeps (h : Ledger s) (halive : s.alive = true) {result : ℤ}
    (hresult : ∀ other, (s.returned.length, other) ∈ s.finished → other = result) :
    ∀ entry ∈ s.finished, entry.1 < (s.returned ++ [result]).length →
      (s.returned ++ [result])[entry.1]? = some entry.2 := by
  intro entry hentry hlt
  rw [List.length_append, List.length_singleton] at hlt
  rcases Nat.lt_succ_iff_lt_or_eq.mp hlt with hold | hnew
  · rw [List.getElem?_append_left hold]
    exact h.kept halive entry hentry hold
  · obtain ⟨number, other⟩ := entry
    dsimp only at hnew
    subst hnew
    rw [List.getElem?_concat_length, hresult other hentry]

/-- A session has one result. -/
theorem Ledger.unique (h : Ledger s) {number : ℕ} {result result' : ℤ}
    (hmem : (number, result) ∈ s.finished) (hmem' : (number, result') ∈ s.finished) :
    result' = result := by
  by_contra hne
  have hpairwise : s.finished.Pairwise fun earlier later => earlier.1 ≠ later.1 :=
    h.finished.imp Nat.ne_of_lt
  have hsymm : Std.Symm fun earlier later : ℕ × ℤ => earlier.1 ≠ later.1 := ⟨fun _ _ => Ne.symm⟩
  exact hpairwise.forall hmem hmem' (by simp [Ne.symm hne]) rfl

theorem Ledger.step (h : Ledger s) (hcontrol : Control s) (hstep : Step event s s') : Ledger s' := by
  cases hstep with
  | refuse s arguments accepted hidle =>
      refine ⟨h.started, h.asked_concat arguments, h.sessions, h.finished, h.ran, ?_, ?_⟩
      · exact h.returns (Or.inl rfl)
      · intro halive
        refine h.keeps halive ?_
        intro other hother
        have hlt := hcontrol.finished _ hother
        rw [hcontrol.counted_idle hidle] at hlt
        exact absurd hlt (Nat.lt_irrefl _)
  | call s arguments hidle halive hfits =>
      exact ⟨h.started, h.asked_concat arguments, h.sessions, h.finished, h.ran, h.results, h.kept⟩
  | stop | stopDead | answer | takeStop | takeAnswer | confirm | showConfirmation =>
      exact ⟨h.started, h.asked, h.sessions, h.finished, h.ran, h.results, h.kept⟩
  | takeRun s number arguments cut requests buffer hrequests hcut =>
      obtain ⟨halive, stopping, hstage⟩ := hcontrol.stage_of_run hrequests
      obtain ⟨-, hasked, hnone, hstarted, -⟩ :=
        (hcontrol.underway halive number stopping hstage).begin hrequests cut buffer
      refine ⟨pairwise_concat h.started hstarted, ?_, ?_, h.finished, ?_, h.results, h.kept⟩
      · refine List.forall_mem_append.mpr ⟨h.asked, ?_⟩
        rw [List.forall_mem_singleton]
        exact ⟨arguments, hasked, hcut⟩
      · rw [hnone]
        exact fun session hsession => List.mem_append_right _ hsession
      · intro entry hentry
        obtain ⟨session, hsession, hnumber⟩ := h.ran entry hentry
        exact ⟨session, List.mem_append_left _ hsession, hnumber⟩
  | finish s number result hsession hresult =>
      obtain ⟨halive, stopping, hstage⟩ := hcontrol.session hsession
      obtain ⟨-, -, -, ⟨arguments, hsessions⟩, -, hfinished⟩ :=
        (hcontrol.underway halive number stopping hstage).hasSession hsession
      have hreturned := (hcontrol.counted_running hstage).1
      refine ⟨h.started, h.asked, ?_, pairwise_concat h.finished hfinished, ?_, ?_, ?_⟩
      · intro session hmem
        exact h.sessions session (List.mem_of_mem_filter hmem)
      · refine List.forall_mem_append.mpr ⟨h.ran, ?_⟩
        rw [List.forall_mem_singleton]
        exact ⟨⟨number, arguments⟩, h.sessions _ (by simp [hsessions]), rfl⟩
      · intro number' result' hget
        exact (h.results number' result' hget).imp_right (List.mem_append_left _)
      · intro _
        refine List.forall_mem_append.mpr ⟨h.kept halive, ?_⟩
        rw [List.forall_mem_singleton]
        intro hlt
        exact absurd hlt (by dsimp only; omega)
  | exit s halive =>
      exact ⟨h.started, h.asked, by simp, h.finished, h.ran, h.results, fun halive => by cases halive⟩
  | result s number origin stopping result replies hstage hreplies =>
      have hreturned := (hcontrol.counted_running hstage).1
      have hfinished : (number, result) ∈ s.finished :=
        (hcontrol.replies number stopping hstage _ (hreplies ▸ List.mem_cons_self)).2 result rfl
      rw [← hreturned] at hfinished
      refine ⟨h.started, h.asked, h.sessions, h.finished, h.ran, h.returns (Or.inr hfinished), ?_⟩
      intro halive
      exact h.keeps halive fun other hother => h.unique hfinished hother
  | lose s number stopping hstage hdead =>
      refine ⟨h.started, h.asked, h.sessions, h.finished, h.ran, h.returns (Or.inl rfl), ?_⟩
      intro halive
      rw [hdead] at halive
      cases halive

/-- The confirmation that a message is. -/
def confirmation? (reply : ℕ × Reply) : Option (ℕ × Bytes) :=
  match reply.2 with
  | .confirmation message => some (reply.1, message)
  | .result _ => none

/-- What was announced and answered is there, on its way, or lost with the process. -/
structure Delivery (s : State) : Prop where
  confirmations : s.announced = s.shown ++ s.replies.filterMap confirmation?
  answers : ∃ lost, s.answered = s.given ++ s.requests.filterMap Request.answer? ++ lost ∧
    (s.alive = true → lost = [])

theorem delivery_start : Delivery {} := ⟨rfl, [], rfl, fun _ => rfl⟩

theorem Delivery.step (h : Delivery s) (hcontrol : Control s) (hstep : Step event s s') :
    Delivery s' := by
  obtain ⟨hconfirmations, lost, hanswers, hlost⟩ := h
  cases hstep with
  | refuse | stopDead | lose => exact ⟨hconfirmations, lost, hanswers, hlost⟩
  | call s arguments hidle halive hfits =>
      refine ⟨hconfirmations, [], ?_, fun _ => rfl⟩
      rw [hanswers, hlost halive]
      simp [Request.answer?]
  | stop s number hstage halive =>
      refine ⟨hconfirmations, [], ?_, fun _ => rfl⟩
      rw [hanswers, hlost halive]
      simp [Request.answer?]
  | answer s confirmation confirmed halive hlength =>
      refine ⟨hconfirmations, [], ?_, fun _ => rfl⟩
      rw [hanswers, hlost halive]
      simp [Request.answer?]
  | takeRun s number arguments cut requests buffer hrequests =>
      refine ⟨hconfirmations, lost, ?_, hlost⟩
      rw [hanswers, hrequests]
      rfl
  | takeStop s requests buffer hrequests =>
      refine ⟨hconfirmations, lost, ?_, hlost⟩
      rw [hanswers, hrequests]
      rfl
  | takeAnswer s confirmation confirmed requests buffer hrequests =>
      refine ⟨hconfirmations, lost, ?_, hlost⟩
      rw [hanswers, hrequests]
      simp [Request.answer?]
  | confirm s number confirmation hsession hlength =>
      refine ⟨?_, lost, hanswers, hlost⟩
      rw [hconfirmations]
      simp [confirmation?]
  | finish s number result hsession hresult =>
      refine ⟨?_, lost, hanswers, hlost⟩
      rw [hconfirmations]
      simp [confirmation?]
  | exit s halive =>
      refine ⟨hconfirmations, s.requests.filterMap Request.answer? ++ lost, ?_, fun halive => by cases halive⟩
      rw [hanswers]
      simp
  | showConfirmation s number origin stopping confirmation replies hstage hreplies =>
      refine ⟨?_, lost, hanswers, hlost⟩
      obtain rfl := (hcontrol.replies number stopping hstage _ (hreplies ▸ List.mem_cons_self)).1
      rw [hconfirmations, hreplies]
      simp [confirmation?]
  | result s number origin stopping result replies hstage hreplies =>
      refine ⟨?_, lost, hanswers, hlost⟩
      rw [hconfirmations, hreplies]
      rfl

theorem invariants_of_run {events : List Event} (hrun : run events {} = some s) :
    Control s ∧ Ledger s ∧ Delivery s := by
  refine Machine.run_invariant (fun s => Control s ∧ Ledger s ∧ Delivery s) ?_
    ⟨control_start, ledger_start, delivery_start⟩ hrun
  rintro event s s' ⟨hcontrol, hledger, hdelivery⟩ hstep
  have hcases := step_cases hcontrol.sized hstep
  exact ⟨hcontrol.step hcases, hledger.step hcontrol hcases, hdelivery.step hcontrol hcases⟩

/-- There is at most one session at a time, the one that a call waits for.  Every call begins
at most one, with its own arguments, and returns the result of its own session, or 1; as long
as the worker process lives no result is lost. -/
theorem sessions_of_run {events : List Event} (hrun : run events {} = some s) :
    (s.sessions = [] ∨ ∃ session stopping, s.sessions = [session] ∧
      s.stage = .running session.number stopping) ∧
    (s.started.Pairwise fun earlier later => earlier.number < later.number) ∧
    (∀ session ∈ s.started, ∃ arguments, s.calls[session.number]? = some arguments ∧
      ((∀ argument ∈ arguments, 0x00 ∉ argument) → session.arguments = arguments)) ∧
    (s.finished.Pairwise fun earlier later => earlier.1 < later.1) ∧
    (∀ entry ∈ s.finished, ∃ session ∈ s.started, session.number = entry.1) ∧
    Counted s ∧
    (∀ number result, s.returned[number]? = some result →
      result = 1 ∨ (number, result) ∈ s.finished) ∧
    (s.alive = true → ∀ entry ∈ s.finished, entry.1 < s.returned.length →
      s.returned[entry.1]? = some entry.2) := by
  obtain ⟨hcontrol, hledger, -⟩ := invariants_of_run hrun
  refine ⟨?_, hledger.started, hledger.asked, hledger.finished, hledger.ran, hcontrol.counted,
    hledger.results, hledger.kept⟩
  cases hsessions : s.sessions with
  | nil => exact Or.inl rfl
  | cons session others =>
      right
      have hsession : s.hasSession session.number = true := by simp [State.hasSession, hsessions]
      obtain ⟨halive, stopping, hstage⟩ := hcontrol.session hsession
      obtain ⟨-, -, -, ⟨arguments, hone⟩, -⟩ :=
        (hcontrol.underway halive session.number stopping hstage).hasSession hsession
      rw [hsessions] at hone
      obtain ⟨-, rfl⟩ := List.cons.inj hone
      exact ⟨session, stopping, rfl, hstage⟩

/-- Two calls, each with a session of its own; the process ends during the third. -/
theorem sessions_of_run_three :
    ∃ s, run [.call [[0x61]] true, .take, .finish 0 0, .receive, .call [[0x62]] true, .take, .stop,
        .take, .finish 1 7, .receive, .call [] true, .exit, .lose] {} = some s ∧
      s.returned = [0, 7, 1] ∧
      (∀ session ∈ s.started, ∃ arguments, s.calls[session.number]? = some arguments ∧
        ((∀ argument ∈ arguments, 0x00 ∉ argument) → session.arguments = arguments)) ∧
      ∀ number result, s.returned[number]? = some result →
        result = 1 ∨ (number, result) ∈ s.finished := by
  have hreaches : ∃ s, run [.call [[0x61]] true, .take, .finish 0 0, .receive, .call [[0x62]] true,
      .take, .stop, .take, .finish 1 7, .receive, .call [] true, .exit, .lose] {} = some s ∧
      s.returned = [0, 7, 1] := by decide +kernel
  obtain ⟨s, hrun, hreturned⟩ := hreaches
  obtain ⟨-, -, hasked, -, -, -, hresults, -⟩ := sessions_of_run hrun
  exact ⟨s, hrun, hreturned, hasked, hresults⟩

/-- A session sees that it is to stop only when its own call has said so, and a stop that was
said is seen or on its way.  The confirmations come up in their order, each for the session
that announced it and before its result; answers come up in their order, as they were given. -/
theorem messages_of_run {events : List Event} (hrun : run events {} = some s) :
    (∀ session ∈ s.sessions, ∃ stopping, s.stage = .running session.number stopping ∧
      (stopping = true ↔ s.stopRequested = true ∨ .stop ∈ s.requests)) ∧
    s.shown <+: s.announced ∧
    (s.alive = true → s.stage = .idle → s.shown = s.announced) ∧
    s.given <+: s.answered ∧
    (s.alive = true → s.requests = [] → s.given = s.answered) := by
  obtain ⟨hcontrol, -, hconfirmations, lost, hanswers, hlost⟩ := invariants_of_run hrun
  refine ⟨?_, ⟨_, hconfirmations.symm⟩, ?_, ?_, ?_⟩
  · intro session hmem
    have hsession : s.hasSession session.number = true :=
      List.any_eq_true.mpr ⟨session, hmem, decide_eq_true rfl⟩
    obtain ⟨halive, stopping, hstage⟩ := hcontrol.session hsession
    obtain ⟨-, -, hstop, -⟩ :=
      (hcontrol.underway halive session.number stopping hstage).hasSession hsession
    exact ⟨stopping, hstage, hstop⟩
  · intro halive hidle
    rw [hconfirmations, (hcontrol.idle halive hidle).2.1]
    simp
  · rw [hanswers, List.append_assoc]
    exact List.prefix_append _ _
  · intro halive hnone
    rw [hanswers, hnone, hlost halive]
    simp

/-- A stop is behind an answer, in a session that waits for one. -/
theorem messages_of_run_answer :
    ∃ s, run [.call [[0x61]] true, .take, .confirm 0 (List.replicate 32 0x07), .receive,
        .answer (List.replicate 32 0x07) true, .stop, .take] {} = some s ∧
      s.stopRequested = false ∧ s.given = [(List.replicate 32 0x07, true)] ∧
      (∀ session ∈ s.sessions, ∃ stopping, s.stage = .running session.number stopping ∧
        (stopping = true ↔ s.stopRequested = true ∨ .stop ∈ s.requests)) ∧
      s.shown <+: s.announced := by
  have hreaches : ∃ s, run [.call [[0x61]] true, .take, .confirm 0 (List.replicate 32 0x07),
      .receive, .answer (List.replicate 32 0x07) true, .stop, .take] {} = some s ∧
      s.stopRequested = false ∧ s.given = [(List.replicate 32 0x07, true)] := by decide +kernel
  obtain ⟨s, hrun, hflag, hgiven⟩ := hreaches
  obtain ⟨hstop, hshown, -⟩ := messages_of_run hrun
  exact ⟨s, hrun, hflag, hgiven, hstop, hshown⟩

end CarPlayWorker
end Bridge
end Aa2acp
