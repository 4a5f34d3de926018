import Aa2acp.Bridge.ManagementUi
import Aa2acp.Lib.History
import Aa2acp.Lib.Machine

/-!
# Confirming a pairing

The numeric comparison of a pairing in the Bluetooth worker: the agent of
`iap2/bluez_pairing.cpp`, which BlueZ calls, and the mailbox of `iap2_bt_main.cpp` through
which the confirmations of the user come in another thread.  The agent works on one call or
one `resolve_pending_confirmation` at a time; answers come at any time, also before the
agent has cleared the mailbox of a confirmation that it gave up (`cancelling`).

The last fields of `Worker` are histories: they number the calls and the confirmations and
say what was announced, answered, replied and cancelled in which order.  D-Bus messages can
always be allocated.
-/

namespace Aa2acp
namespace Iap2
namespace PairingAgent

open Bridge.Management (PairingConfirmation)
open History (lastOf)

/-! ## The mailbox -/

/-- The variables behind `pairing_confirmation_mutex`. -/
structure Mailbox where
  /-- There is a control connection. -/
  controlFd : Bool
  nextId : ℕ := 1
  pendingId : ℕ := 0
  /-- `none` is -1. -/
  pendingResult : Option Bool := none
deriving DecidableEq, Repr

namespace Mailbox

/-- `request_pairing_confirmation`; `sent` is whether the message can be sent. -/
def requestPairingConfirmation (address : Bytes) (passkey : ℕ) (sent : Bool) (m : Mailbox) :
    Option PairingConfirmation × Mailbox :=
  if ¬ m.controlFd ∨ m.pendingId ≠ 0 then (none, m)
  else
    let message : PairingConfirmation :=
      ⟨m.nextId, passkey, if address.length < 18 then address else []⟩
    let m := { m with nextId := (m.nextId + 1) % 2 ^ 64 }
    if sent then (some message, { m with pendingId := message.id, pendingResult := none })
    else (none, m)

/-- `pairing_confirmation_result`. -/
def pairingConfirmationResult (id : ℕ) (m : Mailbox) : Option Bool × Mailbox :=
  if m.pendingId ≠ id then (none, m)
  else
    match m.pendingResult with
    | none => (none, m)
    | some confirmed => (some confirmed, { m with pendingId := 0, pendingResult := none })

/-- `answer_pairing_confirmation`. -/
def answerPairingConfirmation (id : ℕ) (confirmed : Bool) (m : Mailbox) : Mailbox :=
  if m.pendingId = id then { m with pendingResult := some confirmed } else m

/-- `cancel_pairing_confirmation`. -/
def cancelPairingConfirmation (id : ℕ) (m : Mailbox) : Mailbox :=
  if m.pendingId = id then { m with pendingId := 0, pendingResult := none } else m

end Mailbox

/-! ## The agent -/

/-- The method that BlueZ calls. -/
inductive Member where
  | release
  | cancel
  | requestConfirmation (device : Bytes) (passkey : ℕ)
  | requestAuthorization
  | authorizeService
  | displayPasskey
  | requestPinCode
  | requestPasskey
deriving DecidableEq, Repr

structure Message where
  serial : ℕ
  member : Member
deriving DecidableEq, Repr

structure AgentContext where
  pendingConfirmation : Option Message := none
  confirmationId : ℕ := 0
deriving DecidableEq, Repr

inductive Entry where
  /-- The user is asked, on behalf of a call. -/
  | announced (message : Message) (confirmation : PairingConfirmation)
  | answered (id : ℕ) (confirmed : Bool)
  /-- A method return, or an error. -/
  | replied (message : Message) (success : Bool)
  | cancelled (id : ℕ)
deriving DecidableEq, Repr

structure Worker where
  mailbox : Mailbox
  context : AgentContext := {}
  /-- The confirmation that the agent is about to cancel, and the call that it replies to then. -/
  cancelling : Option (ℕ × Option Message) := none
  /-- How many calls there were. -/
  calls : ℕ := 0
  /-- How many numbers were given to confirmations. -/
  issued : ℕ := 0
  history : List Entry := []
deriving DecidableEq, Repr

namespace Worker

def record (entry : Entry) (w : Worker) : Worker := { w with history := w.history ++ [entry] }

def reply (message : Message) (success : Bool) (w : Worker) : Worker :=
  w.record (.replied message success)

/-- `reject_pending_confirmation` up to its call of `cancel_pairing_confirmation`, for a call
that is replied to afterwards. -/
def rejectPendingConfirmation (after : Option Message) (w : Worker) : Worker :=
  match w.context.pendingConfirmation with
  | none => after.elim w fun message => w.reply message true
  | some pending =>
      { w.reply pending false with cancelling := some (w.context.confirmationId, after) }

/-- The rest of it, or of `resolve_pending_confirmation` after a timeout. -/
def cancelConfirmation (id : ℕ) (after : Option Message) (w : Worker) : Worker :=
  let w := ({ w with
    mailbox := w.mailbox.cancelPairingConfirmation id
    context := { w.context with pendingConfirmation := none }
    cancelling := none } : Worker).record (.cancelled id)
  after.elim w fun message => w.reply message true

/-- `resolve_pending_confirmation`; `expired` is whether the deadline has passed. -/
def resolvePendingConfirmation (expired : Bool) (w : Worker) : Worker :=
  match w.context.pendingConfirmation with
  | none => w
  | some pending =>
      match w.mailbox.pairingConfirmationResult w.context.confirmationId with
      | (some confirmed, mailbox) =>
          { w.reply pending confirmed with
            mailbox := mailbox
            context := { w.context with pendingConfirmation := none } }
      | (none, _) =>
          if expired then
            { w.reply pending false with cancelling := some (w.context.confirmationId, none) }
          else w

/-- The arm of `agent_handler` for `RequestConfirmation`. -/
def requestConfirmation (message : Message) (device : Bytes) (passkey : ℕ) (sent : Bool)
    (w : Worker) : Worker :=
  if w.context.pendingConfirmation.isSome then w.reply message false
  else
    let issued :=
      if w.mailbox.controlFd ∧ w.mailbox.pendingId = 0 then w.issued + 1 else w.issued
    match w.mailbox.requestPairingConfirmation device passkey sent with
    | (some confirmation, mailbox) =>
        ({ w with
          mailbox := mailbox
          context := { pendingConfirmation := some message, confirmationId := confirmation.id }
          issued := issued } : Worker).record (.announced message confirmation)
    | (none, mailbox) => ({ w with mailbox := mailbox, issued := issued } : Worker).reply message false

/-- `agent_handler`. -/
def agentHandler (message : Message) (sent : Bool) (w : Worker) : Worker :=
  match message.member with
  | .release => w.rejectPendingConfirmation (some message)
  | .cancel => w.rejectPendingConfirmation (some message)
  | .requestConfirmation device passkey => w.requestConfirmation message device passkey sent
  | .requestPinCode => w.reply message false
  | .requestPasskey => w.reply message false
  | .requestAuthorization => w.reply message true
  | .authorizeService => w.reply message true
  | .displayPasskey => w.reply message true

end Worker

inductive Event where
  /-- BlueZ calls the agent. -/
  | call (member : Member) (sent : Bool)
  /-- The answer of a user comes in. -/
  | answer (id : ℕ) (confirmed : Bool)
  | resolve (expired : Bool)
  /-- The pairing session ends. -/
  | cleanup
  /-- The agent does the rest of giving up a confirmation. -/
  | cancel
  /-- The next pairing session, with a context of its own. -/
  | newContext
deriving DecidableEq, Repr

/-- One step; the agent does nothing else while it gives up a confirmation. -/
def step (event : Event) (w : Worker) : Option Worker :=
  match event, w.cancelling with
  | .answer id confirmed, _ =>
      some (({ w with mailbox := w.mailbox.answerPairingConfirmation id confirmed } : Worker).record
        (.answered id confirmed))
  | .cancel, some (id, after) => some (w.cancelConfirmation id after)
  | .call member sent, none =>
      some (({ w with calls := w.calls + 1 } : Worker).agentHandler ⟨w.calls, member⟩ sent)
  | .resolve expired, none => some (w.resolvePendingConfirmation expired)
  | .cleanup, none => some (w.rejectPendingConfirmation none)
  | .newContext, none => some { w with context := {} }
  | _, _ => none

/-- A worker with or without a control connection. -/
def start (controlFd : Bool) : Worker := { mailbox := { controlFd } }

/-- A call of `RequestConfirmation`. -/
def Event.IsRequest : Event → Bool
  | .call (.requestConfirmation _ _) _ => true
  | _ => false

/-! ## What is to be shown -/

/-- The calls that were replied to. -/
def repliedSerials (history : List Entry) : List ℕ :=
  history.filterMap fun
    | .replied message _ => some message.serial
    | _ => none

/-- The numbers of the confirmations that were announced. -/
def announcedIds (history : List Entry) : List ℕ :=
  history.filterMap fun
    | .announced _ confirmation => some confirmation.id
    | _ => none

/-- The call was announced, and not replied to. -/
def Pending (history : List Entry) (message : Message) : Prop :=
  (∃ confirmation, Entry.announced message confirmation ∈ history) ∧
    message.serial ∉ repliedSerials history

/-- The user confirmed what was announced for this call, and did not take it back; nobody has
replied to the call or cancelled the confirmation. -/
def Confirmed (past : List Entry) (message : Message) : Prop :=
  ∃ confirmation before between after,
    past = before ++ Entry.announced message confirmation :: between ++
      Entry.answered confirmation.id true :: after ∧
    (∀ confirmed, Entry.answered confirmation.id confirmed ∉ after) ∧
    message.serial ∉ repliedSerials past ∧ Entry.cancelled confirmation.id ∉ past ∧
    ∃ device, message.member = .requestConfirmation device confirmation.passkey

/-- Only confirmed calls of `RequestConfirmation` are replied to with success. -/
def OnlyConfirmed (history : List Entry) : Prop :=
  History.AtEach (fun past entry _ => ∀ message device passkey,
    entry = .replied message true → message.member = .requestConfirmation device passkey →
      Confirmed past message) history

/-! ## Histories with one more entry -/

section

variable {history : List Entry} {message : Message}

@[simp] theorem repliedSerials_replied (message : Message) (success : Bool) :
    repliedSerials (history ++ [.replied message success]) = repliedSerials history ++ [message.serial] := by
  simp [repliedSerials]

@[simp] theorem repliedSerials_announced (message : Message) (confirmation : PairingConfirmation) :
    repliedSerials (history ++ [.announced message confirmation]) = repliedSerials history := by
  simp [repliedSerials]

@[simp] theorem repliedSerials_answered (id : ℕ) (confirmed : Bool) :
    repliedSerials (history ++ [.answered id confirmed]) = repliedSerials history := by
  simp [repliedSerials]

@[simp] theorem repliedSerials_cancelled (id : ℕ) :
    repliedSerials (history ++ [.cancelled id]) = repliedSerials history := by
  simp [repliedSerials]

@[simp] theorem announcedIds_replied (message : Message) (success : Bool) :
    announcedIds (history ++ [.replied message success]) = announcedIds history := by
  simp [announcedIds]

@[simp] theorem announcedIds_announced (message : Message) (confirmation : PairingConfirmation) :
    announcedIds (history ++ [.announced message confirmation]) =
      announcedIds history ++ [confirmation.id] := by
  simp [announcedIds]

@[simp] theorem announcedIds_answered (id : ℕ) (confirmed : Bool) :
    announcedIds (history ++ [.answered id confirmed]) = announcedIds history := by
  simp [announcedIds]

@[simp] theorem announcedIds_cancelled (id : ℕ) :
    announcedIds (history ++ [.cancelled id]) = announcedIds history := by
  simp [announcedIds]

theorem mem_announcedIds {confirmation : PairingConfirmation}
    (h : Entry.announced message confirmation ∈ history) : confirmation.id ∈ announcedIds history :=
  List.mem_filterMap.mpr ⟨_, h, rfl⟩

/-- A number was announced on behalf of one call. -/
theorem announced_unique (hnodup : (announcedIds history).Nodup) {other : Message}
    {confirmation confirmation' : PairingConfirmation}
    (h : Entry.announced message confirmation ∈ history)
    (h' : Entry.announced other confirmation' ∈ history) (hid : confirmation'.id = confirmation.id) :
    other = message := by
  obtain ⟨before, after, rfl⟩ := List.append_of_mem h
  have hsplit : announcedIds (before ++ .announced message confirmation :: after) =
      announcedIds before ++ confirmation.id :: announcedIds after := by
    simp [announcedIds]
  rw [hsplit] at hnodup
  have honce := List.nodup_middle.mp hnodup
  rw [List.nodup_cons, List.mem_append, not_or] at honce
  rcases List.mem_append.mp h' with hbefore | hafter
  · exact absurd (hid ▸ mem_announcedIds hbefore) honce.1.1
  · rcases List.mem_cons.mp hafter with hsame | hafter
    · cases hsame
      rfl
    · exact absurd (hid ▸ mem_announcedIds hafter) honce.1.2

/-- What an entry makes of the result for a number. -/
def resultOf (id : ℕ) : Entry → Option (Option Bool)
  | .announced _ confirmation => if confirmation.id = id then some none else none
  | .answered other confirmed => if other = id then some (some confirmed) else none
  | .replied _ _ => none
  | .cancelled _ => none

theorem confirmed_of_lastOf {confirmation : PairingConfirmation}
    (hmem : Entry.announced message confirmation ∈ history)
    (hlast : lastOf (resultOf confirmation.id) history = some (some true))
    (hreplied : message.serial ∉ repliedSerials history)
    (hcancelled : Entry.cancelled confirmation.id ∉ history)
    (hmember : ∃ device, message.member = .requestConfirmation device confirmation.passkey) :
    Confirmed history message := by
  obtain ⟨before, entry, after, hsplit, hvalue, hafter⟩ := History.exists_of_lastOf hlast
  have hentry : entry = .answered confirmation.id true := by
    cases entry with
    | announced other confirmation' =>
        simp only [resultOf] at hvalue
        split at hvalue <;> cases hvalue
    | answered other confirmed =>
        simp only [resultOf] at hvalue
        split at hvalue
        · rename_i hother
          cases hvalue
          rw [hother]
        · cases hvalue
    | replied other success => cases hvalue
    | cancelled other => cases hvalue
  subst hentry
  have hbefore : Entry.announced message confirmation ∈ before := by
    rw [hsplit] at hmem
    rcases List.mem_append.mp hmem with hbefore | hlater
    · exact hbefore
    · rcases List.mem_cons.mp hlater with hsame | hlater
      · cases hsame
      · have hnone := hafter _ hlater
        simp [resultOf] at hnone
  obtain ⟨first, between, rfl⟩ := List.append_of_mem hbefore
  refine ⟨confirmation, first, between, after, hsplit, ?_, hreplied, hcancelled, hmember⟩
  intro confirmed hlater
  have hnone := hafter _ hlater
  simp [resultOf] at hnone

end

/-! ## The invariant -/

/-- What the mailbox and the histories have to do with each other. -/
structure Booked (m : Mailbox) (calls issued : ℕ) (history : List Entry) : Prop where
  next : m.nextId = (issued + 1) % 2 ^ 64
  announced : ∀ id ∈ announcedIds history, 1 ≤ id ∧ id ≤ issued
  announced_nodup : (announcedIds history).Nodup
  replied : ∀ serial ∈ repliedSerials history, serial < calls
  replied_nodup : (repliedSerials history).Nodup
  pending : ∀ message confirmation, Entry.announced message confirmation ∈ history →
    message.serial ∉ repliedSerials history → m.pendingId = confirmation.id
  result : m.pendingId ≠ 0 → m.pendingId ≤ issued ∧
    lastOf (resultOf m.pendingId) history = some m.pendingResult ∧
    Entry.cancelled m.pendingId ∉ history
  cancelled : ∀ id, Entry.cancelled id ∈ history → id ≤ issued
  only : OnlyConfirmed history

/-- The call that the context waits for was announced and not replied to. -/
def Waits (context : AgentContext) (calls : ℕ) (history : List Entry) : Prop :=
  ∀ message, context.pendingConfirmation = some message →
    message.serial < calls ∧ message.serial ∉ repliedSerials history ∧
    ∃ confirmation, Entry.announced message confirmation ∈ history ∧
      confirmation.id = context.confirmationId ∧
      ∃ device, message.member = .requestConfirmation device confirmation.passkey

/-- The call behind a confirmation that is given up was replied to; the one that is replied to
afterwards was not, and asks for no confirmation. -/
def GivesUp (cancelling : Option (ℕ × Option Message)) (calls issued : ℕ) (history : List Entry) : Prop :=
  ∀ id after, cancelling = some (id, after) → id ≤ issued ∧
    (∀ message confirmation, Entry.announced message confirmation ∈ history →
      confirmation.id = id → message.serial ∈ repliedSerials history) ∧
    ∀ message, after = some message → message.serial < calls ∧
      message.serial ∉ repliedSerials history ∧
      ∀ device passkey, message.member ≠ .requestConfirmation device passkey

structure Sound (w : Worker) : Prop where
  booked : Booked w.mailbox w.calls w.issued w.history
  waits : w.cancelling = none → Waits w.context w.calls w.history
  givesUp : GivesUp w.cancelling w.calls w.issued w.history

theorem sound_start (controlFd : Bool) : Sound (start controlFd) where
  booked := {
    next := rfl
    announced := fun _ h => by cases h
    announced_nodup := List.nodup_nil
    replied := fun _ h => by cases h
    replied_nodup := List.nodup_nil
    pending := fun _ _ h => by cases h
    result := fun h => absurd rfl h
    cancelled := fun _ h => by cases h
    only := History.atEach_nil _ }
  waits _ message h := by cases h
  givesUp id after h := by cases h

section

variable {m : Mailbox} {calls issued id : ℕ} {history : List Entry} {message : Message}

/-- Entries that are no replies with success need no confirmation. -/
theorem OnlyConfirmed.record (h : OnlyConfirmed history) {entry : Entry}
    (hentry : ∀ message device passkey, entry = .replied message true →
      message.member = .requestConfirmation device passkey → Confirmed history message) :
    OnlyConfirmed (history ++ [entry]) :=
  History.AtEach.append_singleton h (fun _ _ _ _ hrequire => hrequire) hentry

/-- An entry of another kind is one of the old ones. -/
theorem mem_of_mem_concat {entry last : Entry} (h : entry ∈ history ++ [last]) (hne : entry ≠ last) :
    entry ∈ history := by
  rcases List.mem_append.mp h with hold | hnew
  · exact hold
  · exact absurd (List.mem_singleton.mp hnew) hne

theorem Booked.call (h : Booked m calls issued history) : Booked m (calls + 1) issued history :=
  { h with replied := fun serial hserial => Nat.lt_succ_of_lt (h.replied serial hserial) }

theorem Booked.reply (h : Booked m calls issued history) {success : Bool} (hlt : message.serial < calls)
    (hnew : message.serial ∉ repliedSerials history)
    (honly : success = true → ∀ device passkey, message.member = .requestConfirmation device passkey →
      Confirmed history message) : Booked m calls issued (history ++ [.replied message success]) where
  next := h.next
  announced := by
    rw [announcedIds_replied]
    exact h.announced
  announced_nodup := by
    rw [announcedIds_replied]
    exact h.announced_nodup
  replied := by
    intro serial hserial
    rw [repliedSerials_replied, List.mem_append, List.mem_singleton] at hserial
    rcases hserial with hold | rfl
    · exact h.replied serial hold
    · exact hlt
  replied_nodup := by
    rw [repliedSerials_replied]
    simpa using List.Nodup.concat hnew h.replied_nodup
  pending := by
    intro other confirmation hmem hnot
    rw [repliedSerials_replied, List.mem_append, not_or] at hnot
    exact h.pending other confirmation (mem_of_mem_concat hmem (by simp)) hnot.1
  result := by
    intro hne
    obtain ⟨hle, hlast, hcancelled⟩ := h.result hne
    refine ⟨hle, ?_, fun hmem => hcancelled (mem_of_mem_concat hmem (by simp))⟩
    rw [History.lastOf_append_singleton]
    exact hlast
  cancelled := fun other hmem => h.cancelled other (mem_of_mem_concat hmem (by simp))
  only := by
    refine h.only.record ?_
    rintro other device passkey heq hmember
    cases heq
    exact honly rfl device passkey hmember

/-- An entry that neither announces nor replies, with the result that it leaves. -/
theorem Booked.record (h : Booked m calls issued history) {entry : Entry} {result : Option Bool}
    (hannounced : announcedIds (history ++ [entry]) = announcedIds history)
    (hreplied : repliedSerials (history ++ [entry]) = repliedSerials history)
    (hold : ∀ message confirmation, Entry.announced message confirmation ∈ history ++ [entry] →
      Entry.announced message confirmation ∈ history)
    (hresult : m.pendingId ≠ 0 →
      lastOf (resultOf m.pendingId) (history ++ [entry]) = some result ∧
        entry ≠ .cancelled m.pendingId)
    (hcancelled : ∀ id, entry = .cancelled id → id ≤ issued)
    (honly : ∀ message, entry ≠ .replied message true) :
    Booked { m with pendingResult := result } calls issued (history ++ [entry]) where
  next := h.next
  announced := by
    rw [hannounced]
    exact h.announced
  announced_nodup := by
    rw [hannounced]
    exact h.announced_nodup
  replied := by
    rw [hreplied]
    exact h.replied
  replied_nodup := by
    rw [hreplied]
    exact h.replied_nodup
  pending message confirmation hmem hnot := by
    rw [hreplied] at hnot
    exact h.pending message confirmation (hold message confirmation hmem) hnot
  result hne := by
    obtain ⟨hlast, hentry⟩ := hresult hne
    obtain ⟨hle, -, hcancelled⟩ := h.result hne
    exact ⟨hle, hlast, fun hmem => hcancelled (mem_of_mem_concat hmem hentry.symm)⟩
  cancelled id hmem := by
    by_cases heq : entry = .cancelled id
    · exact hcancelled id heq
    · exact h.cancelled id (mem_of_mem_concat hmem (Ne.symm heq))
  only := h.only.record fun message _ _ heq => absurd heq (honly message)

/-- The answer is kept in the mailbox when it is one to the pending confirmation. -/
theorem Booked.answer (h : Booked m calls issued history) (id : ℕ) (confirmed : Bool) :
    Booked (m.answerPairingConfirmation id confirmed) calls issued
      (history ++ [.answered id confirmed]) := by
  have hmailbox : m.answerPairingConfirmation id confirmed =
      { m with pendingResult := if m.pendingId = id then some confirmed else m.pendingResult } := by
    unfold Mailbox.answerPairingConfirmation
    split <;> rfl
  rw [hmailbox]
  refine h.record (announcedIds_answered _ _) (repliedSerials_answered _ _)
    (fun _ _ hmem => mem_of_mem_concat hmem (by simp)) (fun hne => ⟨?_, by simp⟩) (by simp) (by simp)
  rw [History.lastOf_append_singleton]
  by_cases heq : m.pendingId = id
  · subst heq
    simp [resultOf]
  · rw [if_neg heq, (h.result hne).2.1]
    simp [resultOf, Ne.symm heq]

/-- The mailbox is cleared once the call behind the confirmation was replied to. -/
theorem Booked.clear (h : Booked m calls issued history)
    (hdone : ∀ message confirmation, Entry.announced message confirmation ∈ history →
      confirmation.id = m.pendingId → message.serial ∈ repliedSerials history) :
    Booked { m with pendingId := 0, pendingResult := none } calls issued history :=
  { h with
    pending := by
      intro message confirmation hmem hnot
      exact absurd (hdone message confirmation hmem (h.pending message confirmation hmem hnot).symm) hnot
    result := fun hne => absurd rfl hne }

theorem Booked.cancel (h : Booked m calls issued history) (hid : id ≤ issued)
    (hdone : ∀ message confirmation, Entry.announced message confirmation ∈ history →
      confirmation.id = id → message.serial ∈ repliedSerials history) :
    Booked (m.cancelPairingConfirmation id) calls issued (history ++ [.cancelled id]) := by
  have hcleared : Booked (m.cancelPairingConfirmation id) calls issued history := by
    unfold Mailbox.cancelPairingConfirmation
    split
    · rename_i heq
      subst heq
      exact h.clear hdone
    · exact h
  have hother : (m.cancelPairingConfirmation id).pendingId ≠ 0 →
      (m.cancelPairingConfirmation id).pendingId ≠ id := by
    unfold Mailbox.cancelPairingConfirmation
    split
    · exact fun hne => absurd rfl hne
    · exact fun _ => ‹_›
  refine hcleared.record (announcedIds_cancelled _) (repliedSerials_cancelled _)
    (fun _ _ hmem => mem_of_mem_concat hmem (by simp)) (fun hne => ⟨?_, ?_⟩) ?_ (by simp)
  · rw [History.lastOf_append_singleton]
    exact (hcleared.result hne).2.1
  · simpa using (hother hne).symm
  · rintro _ ⟨⟩
    exact hid

/-- A number is used up, whether or not its confirmation is announced. -/
theorem Booked.issue (h : Booked m calls issued history) :
    Booked { m with nextId := (m.nextId + 1) % 2 ^ 64 } calls (issued + 1) history where
  next := by
    show (m.nextId + 1) % 2 ^ 64 = (issued + 1 + 1) % 2 ^ 64
    rw [h.next, Nat.mod_add_mod]
  announced id hid := ⟨(h.announced id hid).1, Nat.le_succ_of_le (h.announced id hid).2⟩
  announced_nodup := h.announced_nodup
  replied := h.replied
  replied_nodup := h.replied_nodup
  pending := h.pending
  result hne := ⟨Nat.le_succ_of_le (h.result hne).1, (h.result hne).2⟩
  cancelled id hid := Nat.le_succ_of_le (h.cancelled id hid)
  only := h.only

theorem Booked.announce (h : Booked m calls issued history) (hfree : m.pendingId = 0)
    {confirmation : PairingConfirmation} (hid : confirmation.id = issued + 1) (message : Message) :
    Booked { m with
      nextId := (m.nextId + 1) % 2 ^ 64, pendingId := confirmation.id, pendingResult := none }
      calls (issued + 1) (history ++ [.announced message confirmation]) where
  next := h.issue.next
  announced := by
    intro id hmem
    rw [announcedIds_announced, List.mem_append, List.mem_singleton] at hmem
    rcases hmem with hold | rfl
    · exact h.issue.announced id hold
    · omega
  announced_nodup := by
    have hnew : confirmation.id ∉ announcedIds history := by
      intro hmem
      have hle := (h.announced _ hmem).2
      omega
    rw [announcedIds_announced]
    simpa using List.Nodup.concat hnew h.announced_nodup
  replied := by
    rw [repliedSerials_announced]
    exact h.replied
  replied_nodup := by
    rw [repliedSerials_announced]
    exact h.replied_nodup
  pending := by
    intro other confirmation' hmem hnot
    rw [repliedSerials_announced] at hnot
    rcases List.mem_append.mp hmem with hold | hnew
    · -- nothing was pending
      have hzero := h.pending other confirmation' hold hnot
      have hpos := (h.announced _ (mem_announcedIds hold)).1
      omega
    · cases List.mem_singleton.mp hnew
      rfl
  result := by
    intro _
    refine ⟨hid.le, ?_, ?_⟩
    · rw [History.lastOf_append_singleton]
      simp [resultOf]
    · intro hmem
      have hle : confirmation.id ≤ issued := h.cancelled _ (mem_of_mem_concat hmem (by simp))
      omega
  cancelled := fun id hmem => h.issue.cancelled id (mem_of_mem_concat hmem (by simp))
  only := h.only.record fun _ _ _ heq => by cases heq

/-! ## One step -/

variable {context : AgentContext} {w w' : Worker}

theorem Waits.record (h : Waits context calls history) {entry : Entry}
    (hentry : ∀ other success, entry = .replied other success → ∀ pending,
      context.pendingConfirmation = some pending → pending.serial ≠ other.serial) :
    Waits context calls (history ++ [entry]) := by
  intro pending hpending
  obtain ⟨hlt, hnot, confirmation, hmem, hrest⟩ := h pending hpending
  refine ⟨hlt, ?_, confirmation, List.mem_append_left _ hmem, hrest⟩
  cases entry with
  | announced other confirmation' => simpa using hnot
  | answered other confirmed => simpa using hnot
  | cancelled other => simpa using hnot
  | replied other success =>
      rw [repliedSerials_replied, List.mem_append, List.mem_singleton, not_or]
      exact ⟨hnot, hentry other success rfl pending hpending⟩

theorem waits_none {calls : ℕ} {history : List Entry} (h : context.pendingConfirmation = none) :
    Waits context calls history := by
  intro message hmessage
  rw [h] at hmessage
  cases hmessage

theorem givesUp_none {calls issued : ℕ} {history : List Entry} : GivesUp none calls issued history := by
  intro id after h
  cases h

/-- Nobody has replied to the call, and the context does not wait for it. -/
structure Fresh (w : Worker) (message : Message) : Prop where
  lt : message.serial < w.calls
  not_replied : message.serial ∉ repliedSerials w.history
  not_pending : ∀ pending, w.context.pendingConfirmation = some pending → pending.serial ≠ message.serial

theorem Sound.call (h : Sound w) : Sound { w with calls := w.calls + 1 } where
  booked := h.booked.call
  waits hidle pending hpending :=
    ⟨Nat.lt_succ_of_lt (h.waits hidle pending hpending).1, (h.waits hidle pending hpending).2⟩
  givesUp id after hcancelling := by
    obtain ⟨hle, hdone, hafter⟩ := h.givesUp id after hcancelling
    exact ⟨hle, hdone, fun message hmessage =>
      ⟨Nat.lt_succ_of_lt (hafter message hmessage).1, (hafter message hmessage).2⟩⟩

theorem fresh_call (h : Sound w) (hidle : w.cancelling = none) (member : Member) :
    Fresh { w with calls := w.calls + 1 } ⟨w.calls, member⟩ where
  lt := Nat.lt_succ_self _
  not_replied hmem := lt_irrefl _ (h.booked.replied _ hmem)
  not_pending pending hpending := (h.waits hidle pending hpending).1.ne

theorem Sound.reply (h : Sound w) (hidle : w.cancelling = none) (hfresh : Fresh w message) {success : Bool}
    (hsuccess : success = true → ∀ device passkey, message.member ≠ .requestConfirmation device passkey) :
    Sound (w.reply message success) where
  booked := h.booked.reply hfresh.lt hfresh.not_replied fun htrue device passkey hmember =>
    absurd hmember (hsuccess htrue device passkey)
  waits _ := by
    refine (h.waits hidle).record ?_
    rintro other success' heq pending hpending
    cases heq
    exact hfresh.not_pending pending hpending
  givesUp := by
    show GivesUp w.cancelling _ _ _
    rw [hidle]
    exact givesUp_none

/-- The pending call is rejected; the confirmation is about to be cancelled. -/
theorem Sound.reject (h : Sound w) (hidle : w.cancelling = none) {pending : Message}
    (hpending : w.context.pendingConfirmation = some pending) {after : Option Message}
    (hafter : ∀ message, after = some message → Fresh w message ∧
      ∀ device passkey, message.member ≠ .requestConfirmation device passkey) :
    Sound { w.reply pending false with cancelling := some (w.context.confirmationId, after) } := by
  obtain ⟨hlt, hnot, confirmation, hmem, hid, -⟩ := h.waits hidle pending hpending
  refine ⟨h.booked.reply hlt hnot (by simp), fun hnone => (by cases hnone), ?_⟩
  intro id after' heq
  obtain ⟨rfl, rfl⟩ := Prod.mk.inj (Option.some.inj heq)
  refine ⟨?_, ?_, ?_⟩
  · rw [← hid]
    exact (h.booked.announced _ (mem_announcedIds hmem)).2
  · intro other confirmation' hmem' hid'
    have hsame : other = pending :=
      announced_unique h.booked.announced_nodup hmem (mem_of_mem_concat hmem' (by simp)) (hid'.trans hid.symm)
    rw [hsame]
    show pending.serial ∈ repliedSerials (w.history ++ [.replied pending false])
    simp
  · intro message hmessage
    obtain ⟨hfresh, hmember⟩ := hafter message hmessage
    refine ⟨hfresh.lt, ?_, hmember⟩
    show message.serial ∉ repliedSerials (w.history ++ [.replied pending false])
    rw [repliedSerials_replied, List.mem_append, List.mem_singleton, not_or]
    exact ⟨hfresh.not_replied, (hfresh.not_pending pending hpending).symm⟩

theorem Sound.rejectPendingConfirmation (h : Sound w) (hidle : w.cancelling = none) {after : Option Message}
    (hafter : ∀ message, after = some message → Fresh w message ∧
      ∀ device passkey, message.member ≠ .requestConfirmation device passkey) :
    Sound (w.rejectPendingConfirmation after) := by
  unfold Worker.rejectPendingConfirmation
  split
  · cases after with
    | none => exact h
    | some message =>
        obtain ⟨hfresh, hmember⟩ := hafter message rfl
        exact h.reply hidle hfresh fun _ => hmember
  · rename_i pending hpending
    exact h.reject hidle hpending hafter

theorem Sound.cancelConfirmation (h : Sound w) {after : Option Message}
    (hcancelling : w.cancelling = some (id, after)) : Sound (w.cancelConfirmation id after) := by
  obtain ⟨hle, hdone, hafter⟩ := h.givesUp id after hcancelling
  have hnext : Sound (({ w with
      mailbox := w.mailbox.cancelPairingConfirmation id
      context := { w.context with pendingConfirmation := none }
      cancelling := none } : Worker).record (.cancelled id)) :=
    ⟨h.booked.cancel hle hdone, fun _ => waits_none rfl, givesUp_none⟩
  cases after with
  | none => exact hnext
  | some message =>
      obtain ⟨hlt, hnot, hmember⟩ := hafter message rfl
      refine hnext.reply rfl ⟨hlt, ?_, fun pending hpending => by cases hpending⟩ fun _ => hmember
      show message.serial ∉ repliedSerials (w.history ++ [.cancelled id])
      rwa [repliedSerials_cancelled]

theorem pairingConfirmationResult_eq {mailbox : Mailbox} {confirmed : Bool} (hid : m.pendingId = id)
    (h : m.pairingConfirmationResult id = (some confirmed, mailbox)) :
    m.pendingResult = some confirmed ∧ mailbox = { m with pendingId := 0, pendingResult := none } := by
  unfold Mailbox.pairingConfirmationResult at h
  rw [if_neg (not_not.mpr hid)] at h
  split at h
  · cases h
  · rename_i hresult
    cases h
    exact ⟨hresult, rfl⟩

/-- The result that the agent gets is the one for the call that it waits for. -/
theorem Sound.resolvePendingConfirmation (h : Sound w) (hidle : w.cancelling = none) (expired : Bool) :
    Sound (w.resolvePendingConfirmation expired) := by
  unfold Worker.resolvePendingConfirmation
  split
  · exact h
  · rename_i pending hpending
    obtain ⟨hlt, hnot, confirmation, hmem, hid, hmember⟩ := h.waits hidle pending hpending
    have hown : w.mailbox.pendingId = w.context.confirmationId :=
      (h.booked.pending pending confirmation hmem hnot).trans hid
    split
    · rename_i confirmed mailbox hresult
      obtain ⟨hconfirmed, hmailbox⟩ := pairingConfirmationResult_eq hown hresult
      have hne : w.mailbox.pendingId ≠ 0 := by
        have hpos := (h.booked.announced _ (mem_announcedIds hmem)).1
        omega
      obtain ⟨-, hlast, hcancelled⟩ := h.booked.result hne
      rw [hown, ← hid, hconfirmed] at hlast
      rw [hown, ← hid] at hcancelled
      have hreplied : Booked w.mailbox w.calls w.issued (w.history ++ [.replied pending confirmed]) := by
        refine h.booked.reply hlt hnot fun htrue device passkey _ => ?_
        rw [htrue] at hlast
        exact confirmed_of_lastOf hmem hlast hnot hcancelled hmember
      refine ⟨?_, fun _ => waits_none rfl, ?_⟩
      · rw [hmailbox]
        refine hreplied.clear fun other confirmation' hmem' hid' => ?_
        have hsame : other = pending := announced_unique h.booked.announced_nodup hmem
          (mem_of_mem_concat hmem' (by simp)) ((hid'.trans hown).trans hid.symm)
        rw [hsame]
        simp
      · show GivesUp w.cancelling _ _ _
        rw [hidle]
        exact givesUp_none
    · split
      · exact h.reject hidle hpending (by simp)
      · exact h

/-- The arm for `RequestConfirmation`, by what becomes of the request. -/
theorem requestConfirmation_cases (w : Worker) (message : Message) (device : Bytes) (passkey : ℕ)
    (sent : Bool) :
    w.requestConfirmation message device passkey sent = w.reply message false ∨
    w.requestConfirmation message device passkey sent =
      ({ w with
        mailbox := { w.mailbox with nextId := (w.mailbox.nextId + 1) % 2 ^ 64 }
        issued := w.issued + 1 } : Worker).reply message false ∨
    ∃ confirmation : PairingConfirmation, confirmation.id = w.mailbox.nextId ∧
      confirmation.passkey = passkey ∧ w.mailbox.pendingId = 0 ∧
      w.requestConfirmation message device passkey sent =
        ({ w with
          mailbox := { w.mailbox with
            nextId := (w.mailbox.nextId + 1) % 2 ^ 64
            pendingId := confirmation.id
            pendingResult := none }
          context := { pendingConfirmation := some message, confirmationId := confirmation.id }
          issued := w.issued + 1 } : Worker).record (.announced message confirmation) := by
  unfold Worker.requestConfirmation Mailbox.requestPairingConfirmation
  split
  · exact Or.inl rfl
  · by_cases hbusy : ¬ w.mailbox.controlFd ∨ w.mailbox.pendingId ≠ 0
    · left
      have hnone : ¬ (w.mailbox.controlFd = true ∧ w.mailbox.pendingId = 0) := by tauto
      simp only [if_pos hbusy, if_neg hnone]
    · obtain ⟨hfd, hfree⟩ := not_or.mp hbusy
      have hboth : w.mailbox.controlFd = true ∧ w.mailbox.pendingId = 0 :=
        ⟨not_not.mp hfd, not_not.mp hfree⟩
      right
      cases sent with
      | false =>
          left
          simp only [if_neg hbusy, if_pos hboth]
          rfl
      | true =>
          right
          refine ⟨⟨w.mailbox.nextId, passkey, if device.length < 18 then device else []⟩, rfl, rfl,
            hboth.2, ?_⟩
          simp only [if_neg hbusy, if_pos hboth]
          rfl

theorem Sound.requestConfirmation (h : Sound w) (hidle : w.cancelling = none) (hfresh : Fresh w message)
    {device : Bytes} {passkey : ℕ} (hmember : message.member = .requestConfirmation device passkey)
    {sent : Bool} (hissued : (w.requestConfirmation message device passkey sent).issued < 2 ^ 64) :
    Sound (w.requestConfirmation message device passkey sent) := by
  rcases requestConfirmation_cases w message device passkey sent with
    heq | heq | ⟨confirmation, hid, hpasskey, hfree, heq⟩
  · rw [heq]
    exact h.reply hidle hfresh (by simp)
  · have hnext : Sound ({ w with
        mailbox := { w.mailbox with nextId := (w.mailbox.nextId + 1) % 2 ^ 64 }
        issued := w.issued + 1 } : Worker) :=
      ⟨h.booked.issue, h.waits, by rw [hidle]; exact givesUp_none⟩
    rw [heq]
    exact hnext.reply hidle ⟨hfresh.lt, hfresh.not_replied, hfresh.not_pending⟩ (by simp)
  · rw [heq] at hissued ⊢
    have hnumber : confirmation.id = w.issued + 1 := by
      rw [hid, h.booked.next]
      exact Nat.mod_eq_of_lt hissued
    refine ⟨h.booked.announce hfree hnumber message, fun _ => ?_, ?_⟩
    · rintro pending ⟨⟩
      refine ⟨hfresh.lt, ?_, confirmation, List.mem_append_right _ (List.mem_singleton_self _), rfl, device, ?_⟩
      · show message.serial ∉ repliedSerials (w.history ++ [.announced message confirmation])
        rw [repliedSerials_announced]
        exact hfresh.not_replied
      · rw [hmember, hpasskey]
    · show GivesUp w.cancelling _ _ _
      rw [hidle]
      exact givesUp_none

theorem issued_rejectPendingConfirmation (after : Option Message) (w : Worker) :
    (w.rejectPendingConfirmation after).issued = w.issued := by
  unfold Worker.rejectPendingConfirmation
  split
  · cases after <;> rfl
  · rfl

theorem issued_requestConfirmation (w : Worker) (message : Message) (device : Bytes) (passkey : ℕ)
    (sent : Bool) : (w.requestConfirmation message device passkey sent).issued ≤ w.issued + 1 := by
  rcases requestConfirmation_cases w message device passkey sent with heq | heq | ⟨confirmation, -, -, -, heq⟩
  · rw [heq]
    exact Nat.le_succ _
  · rw [heq]
    exact le_rfl
  · rw [heq]
    exact le_rfl

/-- The steps, by what the agent does. -/
theorem step_cases {event : Event} (h : PairingAgent.step event w = some w') :
    (∃ id confirmed, event = .answer id confirmed ∧
      w' = ({ w with mailbox := w.mailbox.answerPairingConfirmation id confirmed } : Worker).record
        (.answered id confirmed)) ∨
    (∃ id after, event = .cancel ∧ w.cancelling = some (id, after) ∧ w' = w.cancelConfirmation id after) ∨
    w.cancelling = none ∧
      ((∃ member sent, event = .call member sent ∧
        w' = ({ w with calls := w.calls + 1 } : Worker).agentHandler ⟨w.calls, member⟩ sent) ∨
      (∃ expired, event = .resolve expired ∧ w' = w.resolvePendingConfirmation expired) ∨
      (event = .cleanup ∧ w' = w.rejectPendingConfirmation none) ∨
      event = .newContext ∧ w' = { w with context := {} }) := by
  unfold PairingAgent.step at h
  split at h
  · rename_i id confirmed
    cases h
    exact Or.inl ⟨id, confirmed, rfl, rfl⟩
  · rename_i id after hcancelling
    cases h
    exact Or.inr (Or.inl ⟨id, after, rfl, hcancelling, rfl⟩)
  · rename_i member sent hidle
    cases h
    exact Or.inr (Or.inr ⟨hidle, Or.inl ⟨member, sent, rfl, rfl⟩⟩)
  · rename_i expired hidle
    cases h
    exact Or.inr (Or.inr ⟨hidle, Or.inr (Or.inl ⟨expired, rfl, rfl⟩)⟩)
  · rename_i hidle
    cases h
    exact Or.inr (Or.inr ⟨hidle, Or.inr (Or.inr (Or.inl ⟨rfl, rfl⟩))⟩)
  · rename_i hidle
    cases h
    exact Or.inr (Or.inr ⟨hidle, Or.inr (Or.inr (Or.inr ⟨rfl, rfl⟩))⟩)
  · cases h

theorem issued_resolvePendingConfirmation (expired : Bool) (w : Worker) :
    (w.resolvePendingConfirmation expired).issued = w.issued := by
  unfold Worker.resolvePendingConfirmation
  split
  · rfl
  · split
    · rfl
    · split <;> rfl

/-- Only a call of `RequestConfirmation` uses up a number. -/
theorem issued_step {event : Event} (hstep : PairingAgent.step event w = some w') :
    w'.issued ≤ w.issued + if event.IsRequest then 1 else 0 := by
  rcases step_cases hstep with ⟨id, confirmed, rfl, rfl⟩ | ⟨id, after, rfl, hcancelling, rfl⟩ | ⟨hidle, hagent⟩
  · exact Nat.le_add_right _ _
  · cases after <;> exact Nat.le_add_right _ _
  · rcases hagent with ⟨member, sent, rfl, rfl⟩ | ⟨expired, rfl, rfl⟩ | ⟨rfl, rfl⟩ | ⟨rfl, rfl⟩
    · cases member with
      | requestConfirmation device passkey => exact issued_requestConfirmation _ _ _ _ _
      | release => exact (issued_rejectPendingConfirmation _ _).le
      | cancel => exact (issued_rejectPendingConfirmation _ _).le
      | requestAuthorization => exact le_rfl
      | authorizeService => exact le_rfl
      | displayPasskey => exact le_rfl
      | requestPinCode => exact le_rfl
      | requestPasskey => exact le_rfl
    · exact (issued_resolvePendingConfirmation _ _).le
    · exact (issued_rejectPendingConfirmation _ _).le
    · exact le_rfl

theorem GivesUp.answer {cancelling : Option (ℕ × Option Message)} (h : GivesUp cancelling calls issued history)
    (answered : ℕ) (confirmed : Bool) :
    GivesUp cancelling calls issued (history ++ [.answered answered confirmed]) := by
  intro id after hcancelling
  rw [repliedSerials_answered]
  obtain ⟨hle, hdone, hafter⟩ := h id after hcancelling
  exact ⟨hle, fun message confirmation hmem => hdone message confirmation (mem_of_mem_concat hmem (by simp)),
    hafter⟩

theorem Sound.agentHandler (h : Sound w) (hidle : w.cancelling = none) (hfresh : Fresh w message) {sent : Bool}
    (hissued : (w.agentHandler message sent).issued < 2 ^ 64) : Sound (w.agentHandler message sent) := by
  have hafter : (∀ device passkey, message.member ≠ .requestConfirmation device passkey) →
      ∀ other, some message = some other → Fresh w other ∧
        ∀ device passkey, other.member ≠ .requestConfirmation device passkey := by
    rintro hmember _ ⟨⟩
    exact ⟨hfresh, hmember⟩
  unfold Worker.agentHandler at hissued ⊢
  split
  · rename_i hmember
    exact h.rejectPendingConfirmation hidle (hafter (by simp [hmember]))
  · rename_i hmember
    exact h.rejectPendingConfirmation hidle (hafter (by simp [hmember]))
  · rename_i device passkey hmember
    rw [hmember] at hissued
    exact h.requestConfirmation hidle hfresh hmember hissued
  all_goals
    rename_i hmember
    exact h.reply hidle hfresh (by simp [hmember])

theorem Sound.step (h : Sound w) {event : Event} (hstep : PairingAgent.step event w = some w')
    (hissued : w'.issued < 2 ^ 64) : Sound w' := by
  rcases step_cases hstep with ⟨id, confirmed, rfl, rfl⟩ | ⟨id, after, rfl, hcancelling, rfl⟩ | ⟨hidle, hagent⟩
  · exact ⟨h.booked.answer id confirmed, fun hidle => (h.waits hidle).record (by simp),
      h.givesUp.answer id confirmed⟩
  · exact h.cancelConfirmation hcancelling
  · rcases hagent with ⟨member, sent, rfl, rfl⟩ | ⟨expired, rfl, rfl⟩ | ⟨rfl, rfl⟩ | ⟨rfl, rfl⟩
    · exact h.call.agentHandler hidle (fresh_call h hidle member) hissued
    · exact h.resolvePendingConfirmation hidle expired
    · exact h.rejectPendingConfirmation hidle (by simp)
    · exact ⟨h.booked, fun _ => waits_none rfl, h.givesUp⟩

/-- The invariant holds in every run with fewer calls of `RequestConfirmation` than there are
numbers. -/
theorem sound_run {events : List Event} (h : Sound w)
    (hfew : w.issued + events.countP Event.IsRequest < 2 ^ 64)
    (hrun : Machine.run PairingAgent.step events w = some w') : Sound w' := by
  induction events generalizing w with
  | nil =>
      cases hrun
      exact h
  | cons event events ih =>
      obtain ⟨next, hstep, hrest⟩ := Machine.run_cons_eq_some.mp hrun
      have hissued := issued_step hstep
      rw [List.countP_cons] at hfew
      exact ih (h.step hstep (by omega)) (by omega) hrest

end

/-! ## Every confirmation is the user's -/

/-- In every run at most one call is pending at a time, no number is announced twice, no call
is replied to twice, and a call of `RequestConfirmation` is replied to with success only
when the user has confirmed what was announced for it. -/
theorem pairing_confirmed {controlFd : Bool} {events : List Event} {w : Worker}
    (hfew : events.countP Event.IsRequest < 2 ^ 64)
    (hrun : Machine.run step events (start controlFd) = some w) :
    (∀ message other, Pending w.history message → Pending w.history other → message = other) ∧
      (announcedIds w.history).Nodup ∧ (repliedSerials w.history).Nodup ∧
      ∀ before message device passkey after,
        w.history = before ++ Entry.replied message true :: after →
        message.member = .requestConfirmation device passkey → Confirmed before message := by
  have hsound : Sound w := sound_run (sound_start controlFd) (by simpa [start] using hfew) hrun
  refine ⟨?_, hsound.booked.announced_nodup, hsound.booked.replied_nodup, ?_⟩
  · rintro message other ⟨⟨confirmation, hmem⟩, hnot⟩ ⟨⟨confirmation', hmem'⟩, hnot'⟩
    refine announced_unique hsound.booked.announced_nodup hmem' hmem ?_
    rw [← hsound.booked.pending message confirmation hmem hnot,
      ← hsound.booked.pending other confirmation' hmem' hnot']
  · intro before message device passkey after hsplit hmember
    exact hsound.booked.only before _ after hsplit message device passkey rfl hmember

/-- A confirmation that was cancelled is answered too late; the next one is confirmed. -/
theorem pairing_confirmed_second :
    ∃ w, Machine.run step [.call (.requestConfirmation [] 111111) true, .call .cancel true,
        .cancel, .call (.requestConfirmation [] 222222) true, .answer 1 true, .resolve false,
        .answer 2 true, .resolve false] (start true) = some w ∧
      Confirmed [.announced ⟨0, .requestConfirmation [] 111111⟩ ⟨1, 111111, []⟩,
        .replied ⟨0, .requestConfirmation [] 111111⟩ false, .cancelled 1, .replied ⟨1, .cancel⟩ true,
        .announced ⟨2, .requestConfirmation [] 222222⟩ ⟨2, 222222, []⟩, .answered 1 true,
        .answered 2 true] ⟨2, .requestConfirmation [] 222222⟩ := by
  obtain ⟨w, hrun, hhistory⟩ : ∃ w, Machine.run step [.call (.requestConfirmation [] 111111) true,
      .call .cancel true, .cancel, .call (.requestConfirmation [] 222222) true, .answer 1 true,
      .resolve false, .answer 2 true, .resolve false] (start true) = some w ∧
      w.history = [.announced ⟨0, .requestConfirmation [] 111111⟩ ⟨1, 111111, []⟩,
        .replied ⟨0, .requestConfirmation [] 111111⟩ false, .cancelled 1, .replied ⟨1, .cancel⟩ true,
        .announced ⟨2, .requestConfirmation [] 222222⟩ ⟨2, 222222, []⟩, .answered 1 true,
        .answered 2 true, .replied ⟨2, .requestConfirmation [] 222222⟩ true] := by
    decide +kernel
  obtain ⟨-, -, -, honly⟩ := pairing_confirmed (by decide +kernel) hrun
  exact ⟨w, hrun, honly _ _ _ _ [] hhistory rfl⟩

end PairingAgent
end Iap2
end Aa2acp
