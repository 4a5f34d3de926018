import Aa2acp.Iap2.LinkAcknowledgement
import Aa2acp.Iap2.LinkMoves
import Mathlib.Data.List.Chain

/-!
# Accounts of the control messages

`pending_` forgets a message once it is acknowledged, and a frame that went out does
not say for which message it did.  This file keeps the accounts: a `Ledger` reads the
history of a run, opens an account for every message that `send_control` took, charges
every retransmission to the message whose entry of `pending_` it moved, and settles an
account when a frame of the peer acknowledges the message.  The accounts of a run are
exact: the message went out no more often than the link parameters allow, each time with
the same bytes, and again only in a `tick` that came when it was due.
-/

namespace Aa2acp
namespace Iap2

variable {σ : Type}

/-! ## The ledger -/

/-- One `send_` call for a message: the bytes, the deadline set with it, and the time
of the `tick` it happened in. -/
structure Transmission where
  frame : Bytes
  deadline : TimePoint
  tick : Option TimePoint
deriving DecidableEq, Repr

/-- A message that `send_control` took, as `pending_` holds it, with the retry limit of
that moment and every `send_` call made for it. -/
structure Account where
  message : PendingMessage
  limit : Nat
  sent : List Transmission
deriving DecidableEq, Repr

structure Ledger where
  pending : List Account := []
  /-- Acknowledged, or swept away by a reset of the peer. -/
  settled : List Account := []
  /-- What `encode_packet` built and `send_` was not called with yet. -/
  encoded : Option Bytes := none
  /-- The frame of the last `send_` call. -/
  offered : Bytes := []
  /-- Frames that belong to no message and were not just built. -/
  strays : List Bytes := []
deriving DecidableEq, Repr

/-- Charge a frame to the first account whose message is not as `pending_` has it. -/
def charge (time : Option TimePoint) (frame : Bytes) :
    List Account → List PendingMessage → Option (List Account)
  | account :: accounts, message :: pending =>
      if account.message = message then (charge time frame accounts pending).map (account :: ·)
      else
        some ({ account with
          message := message
          sent := account.sent ++ [⟨frame, message.deadline, time⟩] } :: accounts)
  | _, _ => none

namespace Ledger

/-- A `send_` call: a frame that was just built, the marker, or a retransmission. -/
def transmit (time : Option TimePoint) (link : PhoneLink) (frame : Bytes) (ledger : Ledger) :
    Ledger :=
  if ledger.encoded = some frame ∨ frame = kMarker then
    { ledger with encoded := none, offered := frame }
  else
    match charge time frame ledger.pending link.pending with
    | some pending => { ledger with pending := pending, offered := frame }
    | none => { ledger with strays := ledger.strays ++ [frame], offered := frame }

/-- `send_control` took a message, which is now the last of `pending_`. -/
def accept (time : Option TimePoint) (link : PhoneLink) (ledger : Ledger) : Ledger :=
  match link.pending.getLast? with
  | some message =>
      { ledger with
        pending := ledger.pending ++
          [⟨message, link.lsp.maxRetransmissions.toNat,
            [⟨ledger.offered, message.deadline, time⟩]⟩] }
  | none => { ledger with strays := ledger.strays ++ [ledger.offered] }

/-- Whether a frame of the peer settles the account. -/
def settles (header : Header) (account : Account) : Bool :=
  header.control &&& kControlRst != 0 ||
    header.control &&& kControlAck != 0 &&
      acknowledgedBy account.message.sequence header.acknowledgement

def settle (header : Header) (ledger : Ledger) : Ledger :=
  { ledger with
    pending := ledger.pending.filter fun account => !settles header account
    settled := ledger.settled ++ ledger.pending.filter (settles header) }

/-- Enter one event of the history.  `time` is that of the `tick` it belongs to. -/
def book (time : Option TimePoint) (ledger : Ledger) (entry : Entry) : Ledger :=
  match entry.event with
  | .encoded frame => { ledger with encoded := some frame }
  | .sent frame _ => ledger.transmit time entry.link frame
  | .answered true => ledger.accept time entry.link
  | .packet header _ => ledger.settle header
  | _ => ledger

end Ledger

/-- One call of the owner, and the events it added entered into the ledger. -/
def applyBooked (env : Env σ) (state : World σ × Ledger) (input : Input) : World σ × Ledger :=
  let w := apply env state.1 input
  (w, (w.trace.drop state.1.trace.length).foldl (Ledger.book input.tickTime) state.2)

/-- The ledger of a whole run. -/
def ledgerOf (env : Env σ) (app : σ) (inputs : List Input) : Ledger :=
  (inputs.foldl (applyBooked env) (World.fresh app, {})).2

/-! ## Exact accounts -/

/-- The message went out at most once more than its retry limit, always with the same
bytes, and again only in a `tick` at or after the deadline set before. -/
structure Account.Exact (account : Account) : Prop where
  bounded : account.sent.length ≤ 1 + account.limit
  same : ∀ transmission ∈ account.sent, transmission.frame = account.message.frame
  due : account.sent.IsChain fun earlier later =>
    ∃ now, later.tick = some now ∧ earlier.deadline ≤ now

/-- The last transmission the limit allows was made, and its deadline has come. -/
def Account.Exhausted (now : TimePoint) (account : Account) : Prop :=
  account.sent.length = 1 + account.limit ∧
    ∃ last, account.sent.getLast? = some last ∧ last.deadline ≤ now

/-- `pending_` counts and dates the transmissions as the account does. -/
structure Account.Kept (account : Account) : Prop extends account.Exact where
  counted : account.sent.length = account.message.retries + 1
  dated : account.sent.getLast?.map Transmission.deadline = some account.message.deadline
  frame : account.message.frame ≠ kMarker

/-- The ledger is that of the link's history. -/
structure Accounted (ledger : Ledger) (w : World σ) : Prop where
  kept : ∀ account ∈ ledger.settled ++ ledger.pending, account.Kept
  current : ledger.pending.map Account.message = w.link.pending ∨
    w.link.state = .dead ∧ w.link.pending = []
  limit : w.link.state ≠ .dead → ∀ account ∈ ledger.pending,
    w.link.state = .normal ∧ account.limit = w.link.lsp.maxRetransmissions.toNat
  encoded : w.link.state ≠ .dead → ledger.encoded = none
  strays : ledger.strays = []
  accepted : (ledger.settled ++ ledger.pending).length = acceptances w.trace

/-- The ledger of the history that a stretch of calls added to `base`. -/
def Booked (time : Option TimePoint) (base : List Entry) (ledger : Ledger) (w : World σ) : Prop :=
  ∃ added, w.trace = base ++ added ∧ Accounted (added.foldl (Ledger.book time) ledger) w

variable {env : Env σ} {time : Option TimePoint} {ledger : Ledger} {base : List Entry}
  {w : World σ}

theorem accounted_fresh (app : σ) : Accounted {} (World.fresh app) where
  kept := by simp
  current := Or.inl rfl
  limit := by simp
  encoded := fun _ => rfl
  strays := rfl
  accepted := rfl

theorem Accounted.booked (h : Accounted ledger w) : Booked time w.trace ledger w :=
  ⟨[], (List.append_nil _).symm, h⟩

theorem Booked.trans {w' : World σ} (h : Booked time base ledger w)
    (hlater : ∀ ledger', Accounted ledger' w → Booked time w.trace ledger' w') :
    Booked time base ledger w' := by
  obtain ⟨added, htrace, haccounted⟩ := h
  obtain ⟨more, htrace', haccounted'⟩ := hlater _ haccounted
  refine ⟨added ++ more, ?_, ?_⟩
  · rw [htrace', htrace, List.append_assoc]
  · rw [List.foldl_append]
    exact haccounted'

/-! ## Updates and events that concern no message -/

/-- The accounts are carried over to a link whose `pending_` is the same, or cleared for
good, unless the link is revived or the parameters of an established one change. -/
theorem Accounted.carry (h : Accounted ledger w) {ledger' : Ledger} {w' : World σ}
    (hopen : ledger'.pending = ledger.pending) (hsettled : ledger'.settled = ledger.settled)
    (hstrays : ledger'.strays = ledger.strays)
    (hpending : w'.link.pending = w.link.pending ∨ w'.link.state = .dead ∧ w'.link.pending = [])
    (halive : w'.link.state ≠ .dead → w.link.state ≠ .dead ∧ ledger'.encoded = none ∧
      (w.link.state = .normal → w'.link.state = .normal ∧ w'.link.lsp = w.link.lsp))
    (htaken : acceptances w'.trace = acceptances w.trace) : Accounted ledger' w' where
  kept := by
    rw [hopen, hsettled]
    exact h.kept
  current := by
    rw [hopen]
    rcases hpending with hsame | hdead
    · rcases h.current with hcurrent | ⟨hdead, hnone⟩
      · exact Or.inl (hcurrent.trans hsame.symm)
      · by_cases hstate : w'.link.state = .dead
        · exact Or.inr ⟨hstate, hsame.trans hnone⟩
        · exact absurd hdead (halive hstate).1
    · exact Or.inr hdead
  limit := by
    rw [hopen]
    intro hstate account haccount
    obtain ⟨hbefore, -, hnormal⟩ := halive hstate
    obtain ⟨hwas, hlimit⟩ := h.limit hbefore account haccount
    obtain ⟨his, hlsp⟩ := hnormal hwas
    exact ⟨his, by rw [hlimit, hlsp]⟩
  encoded := fun hstate => (halive hstate).2.1
  strays := hstrays.trans h.strays
  accepted := by rw [hopen, hsettled, htaken, h.accepted]

theorem Accounted.relink (h : Accounted ledger w) {link : PhoneLink}
    (hpending : link.pending = w.link.pending ∨ link.state = .dead ∧ link.pending = [])
    (halive : link.state ≠ .dead → w.link.state ≠ .dead ∧
      (w.link.state = .normal → link.state = .normal ∧ link.lsp = w.link.lsp)) :
    Accounted ledger { w with link := link } :=
  h.carry rfl rfl rfl hpending
    (fun hstate => ⟨(halive hstate).1, h.encoded (halive hstate).1, (halive hstate).2⟩) rfl

theorem Accounted.update (h : Accounted ledger w) {f : PhoneLink → PhoneLink}
    (hpending : (f w.link).pending = w.link.pending) (hstate : (f w.link).state = w.link.state)
    (hlsp : (f w.link).lsp = w.link.lsp) : Accounted ledger (w.update f) :=
  h.relink (Or.inl hpending) fun halive =>
    ⟨by rwa [hstate] at halive, fun hnormal => ⟨hstate.trans hnormal, hlsp⟩⟩

/-- A link that dies keeps its `pending_` or loses it. -/
theorem Accounted.died (h : Accounted ledger w) {f : PhoneLink → PhoneLink}
    (hdead : (f w.link).state = .dead)
    (hpending : (f w.link).pending = w.link.pending ∨ (f w.link).pending = []) :
    Accounted ledger (w.update f) :=
  h.relink (hpending.imp id fun hnone => ⟨hdead, hnone⟩) fun halive => absurd hdead halive

/-- An event that neither sends, takes nor acknowledges anything. -/
def Event.unbooked : Event → Bool
  | .delivered _ => true
  | .callbackReturned => true
  | .answered accepted => !accepted
  | .synAdopted _ _ => true
  | .established => true
  | .advanced _ _ => true
  | _ => false

theorem Accounted.record (h : Accounted ledger w) {event : Event}
    (hevent : event.unbooked = true) : Booked time w.trace ledger (w.record event) := by
  have hbook : ledger.book time ⟨w.link, event⟩ = ledger := by
    cases event with
    | answered accepted =>
        cases accepted with
        | true => cases hevent
        | false => rfl
    | encoded frame => cases hevent
    | sent frame accepted => cases hevent
    | packet header payload => cases hevent
    | _ => rfl
  have hacceptance : event.isAcceptance = false := by
    cases event with
    | answered accepted => simpa [Event.unbooked, Event.isAcceptance] using hevent
    | _ => rfl
  refine ⟨[⟨w.link, event⟩], rfl, ?_⟩
  rw [List.foldl_cons, List.foldl_nil, hbook]
  refine h.carry rfl rfl rfl (Or.inl rfl)
    (fun hstate => ⟨hstate, h.encoded hstate, fun hnormal => ⟨hnormal, rfl⟩⟩) ?_
  rw [World.record_trace, acceptances_snoc, hacceptance]
  rfl

/-- A frame that was just built is charged to nobody. -/
theorem transmit_encoded (link : PhoneLink) (frame : Bytes) (accepted : Bool) :
    [⟨link, .encoded frame⟩, ⟨link, .sent frame accepted⟩].foldl (Ledger.book time) ledger =
      { ledger with encoded := none, offered := frame } := by
  simp [Ledger.book, Ledger.transmit]

/-- Building and offering a frame takes no message. -/
theorem acceptances_frame (trace : List Entry) (link link' : PhoneLink) (frame : Bytes)
    (accepted : Bool) :
    acceptances (trace ++ [⟨link, .encoded frame⟩, ⟨link', .sent frame accepted⟩]) =
      acceptances trace := by
  simp [acceptances, Event.isAcceptance]

theorem Accounted.writePacket (h : Accounted ledger w) (payload : Bytes)
    (sequence control sessionId : UInt8) :
    Booked time w.trace ledger (writePacket env payload sequence control sessionId w) := by
  rcases writePacket_cases env payload sequence control sessionId w with
    ⟨-, hwrite⟩ | ⟨packet, accepted, -, -, hwrite⟩
  · rw [hwrite]
    exact ⟨_, rfl, h.carry rfl rfl rfl (Or.inl rfl) (fun hstate => absurd rfl hstate)
      (acceptances_snoc w.trace _)⟩
  · rw [hwrite]
    refine ⟨_, rfl, ?_⟩
    rw [transmit_encoded]
    have htaken := acceptances_frame w.trace w.link w.link packet accepted
    cases accepted with
    | true =>
        exact h.carry rfl rfl rfl (Or.inl rfl)
          (fun hstate => ⟨hstate, rfl, fun hnormal => ⟨hnormal, rfl⟩⟩) htaken
    | false =>
        exact h.carry rfl rfl rfl (Or.inl rfl) (fun hstate => absurd rfl hstate) htaken

/-- The sequence number and the time of the next SYN concern no message. -/
theorem Accounted.sendSyn (h : Accounted ledger w) (now : TimePoint) (acknowledgePeer : Bool) :
    Booked time w.trace ledger (sendSyn env now acknowledgePeer w) := by
  unfold Iap2.sendSyn
  split
  · exact h.booked
  · have hopened : Accounted ledger (w.update .openSyn) :=
      h.update (openSyn_pending w.link) (openSyn_state w.link) (openSyn_lsp w.link)
    have hwritten : Booked time w.trace ledger
        (Iap2.writePacket env (encodeLsp w.link.lsp) w.link.openSyn.synSequence
          (kControlSyn ||| if acknowledgePeer then kControlAck else 0) 0 (w.update .openSyn)) :=
      hopened.writePacket _ _ _ _
    obtain ⟨added, htrace, haccounted⟩ := hwritten
    refine ⟨added, htrace, ?_⟩
    exact haccounted.update (f := fun link => { link with nextSyn := now + milliseconds 500 })
      rfl rfl rfl

theorem Accounted.sendMarker (h : Accounted ledger w) :
    Booked time w.trace ledger (sendMarker env w).2 := by
  have hbook (accepted : Bool) :
      ledger.book time ⟨w.link, .sent kMarker accepted⟩ =
        { ledger with encoded := none, offered := kMarker } := by
    simp [Ledger.book, Ledger.transmit]
  have hsent (accepted : Bool) :
      Booked time w.trace ledger (w.record (.sent kMarker accepted)) := by
    refine ⟨[⟨w.link, .sent kMarker accepted⟩], rfl, ?_⟩
    rw [List.foldl_cons, List.foldl_nil, hbook]
    exact h.carry rfl rfl rfl (Or.inl rfl)
      (fun hstate => ⟨hstate, rfl, fun hnormal => ⟨hnormal, rfl⟩⟩) (acceptances_snoc w.trace _)
  unfold Iap2.sendMarker
  rw [World.transmit_eq]
  cases env.send w.sentFrames kMarker with
  | true => exact hsent true
  | false =>
      obtain ⟨added, htrace, haccounted⟩ := hsent false
      exact ⟨added, htrace, haccounted.died rfl (Or.inl rfl)⟩

/-! ## A message is taken -/

/-- No frame is the marker. -/
theorem encodeFrame_ne_kMarker (control sequence acknowledgement sessionId : UInt8)
    (payload : Bytes) : encodeFrame control sequence acknowledgement sessionId payload ≠ kMarker := by
  intro h
  have hsecond : (encodeFrame control sequence acknowledgement sessionId payload).getD 1 0 =
      0x5a := by
    unfold encodeFrame
    split <;> rfl
  rw [h] at hsecond
  exact absurd hsecond (by decide)

/-- The account of a message whose first transmission was just made. -/
theorem kept_accepted {frame : Bytes} (hframe : frame ≠ kMarker) (sequence : UInt8)
    (deadline : TimePoint) (limit : Nat) :
    Account.Kept ⟨⟨sequence, frame, deadline, 0⟩, limit, [⟨frame, deadline, time⟩]⟩ where
  bounded := by simp
  same := by simp
  due := by simp
  counted := rfl
  dated := rfl
  frame := hframe

/-- A message that could not be built or sent costs the link its life. -/
theorem Accounted.queueRefused (h : Accounted ledger w) {w' : World σ} {frame : Bytes}
    {link : PhoneLink} {sent : List Entry} (hstate : w'.link.state = .dead)
    (hpending : w'.link.pending = [])
    (htrace : w'.trace = w.trace ++ ⟨link, .encoded frame⟩ :: sent)
    (hsent : sent = [] ∨ sent = [⟨link, .sent frame false⟩]) :
    Booked time w.trace ledger w' := by
  have hdead (ledger' : Ledger) (hopen : ledger'.pending = ledger.pending)
      (hsettled : ledger'.settled = ledger.settled) (hstrays : ledger'.strays = ledger.strays)
      (htaken : acceptances w'.trace = acceptances w.trace) : Accounted ledger' w' :=
    h.carry hopen hsettled hstrays (Or.inr ⟨hstate, hpending⟩)
      (fun halive => absurd hstate halive) htaken
  refine ⟨_, htrace, ?_⟩
  rcases hsent with rfl | rfl
  · exact hdead _ rfl rfl rfl (by rw [htrace]; exact acceptances_snoc w.trace _)
  · rw [transmit_encoded]
    exact hdead _ rfl rfl rfl (by rw [htrace, acceptances_frame])

theorem Accounted.sendControl (h : Accounted ledger w) (payload : Bytes) :
    Booked time w.trace ledger (sendControl env payload w).2 := by
  unfold Iap2.sendControl
  cases hrefuses : refusesControl w.link payload with
  | true =>
      have hanswered : Booked time w.trace ledger (w.record (.answered false)) := h.record rfl
      exact hanswered
  | false =>
      simp only [Bool.false_eq_true, if_false]
      obtain ⟨hnormal, hne, -⟩ := refusesControl_eq_false hrefuses
      have hfits := refusesControl_fits hrefuses
      have halive : w.link.state ≠ .dead := by simp [hnormal]
      rcases queueControl_cases env payload w with
        ⟨frame, deadline, hframe, hqueue⟩ | ⟨frame, sent, hframe, hsent, hqueue⟩
      · rw [encodePacket_of_fits w.link hfits] at hframe
        have hmarker : frame ≠ kMarker := hframe ▸ encodeFrame_ne_kMarker _ _ _ _ _
        have hcurrent : ledger.pending.map Account.message = w.link.pending := by
          rcases h.current with hsame | ⟨hdead, -⟩
          · exact hsame
          · exact absurd hdead halive
        rw [hqueue]
        refine ⟨_, List.append_assoc _ _ _, ?_⟩
        rw [List.foldl_append, transmit_encoded, List.foldl_cons, List.foldl_nil]
        simp only [Ledger.book, Ledger.accept, List.getLast?_append, List.getLast?_singleton,
          Option.some_or]
        set account : Account := ⟨⟨w.link.sentSequence + 1, frame, deadline, 0⟩,
          w.link.lsp.maxRetransmissions.toNat, [⟨frame, deadline, time⟩]⟩ with haccount
        refine
          { kept := ?_
            current := Or.inl (by simp [hcurrent, haccount])
            limit := ?_
            encoded := fun _ => rfl
            strays := h.strays
            accepted := ?_ }
        · intro other hother
          rw [← List.append_assoc, List.mem_append, List.mem_singleton] at hother
          rcases hother with hother | rfl
          · exact h.kept other hother
          · exact kept_accepted hmarker _ _ _
        · intro _ other hother
          rcases List.mem_append.mp hother with hother | hother
          · exact h.limit halive other hother
          · rw [List.mem_singleton.mp hother]
            exact ⟨hnormal, rfl⟩
        · rw [World.record_trace, acceptances_snoc]
          dsimp only
          rw [acceptances_frame, ← h.accepted, ← List.append_assoc, List.length_append]
          rfl
      · have hlost : Booked time w.trace ledger (queueControl env payload w).2 :=
          h.queueRefused (by rw [hqueue]) (by rw [hqueue]) (by rw [hqueue])
            (hsent.imp And.right And.right)
        have hfalse : (queueControl env payload w).1 = false := by rw [hqueue]
        rw [hfalse]
        exact hlost.trans fun ledger' h' => h'.record rfl

/-! ## A frame of the peer settles accounts -/

/-- Settling moves accounts and loses none. -/
theorem mem_settle {header : Header} {account : Account}
    (h : account ∈ (ledger.settle header).settled ++ (ledger.settle header).pending) :
    account ∈ ledger.settled ++ ledger.pending := by
  simp only [Ledger.settle, List.mem_append, List.mem_filter] at h ⊢
  tauto

theorem length_settle (header : Header) :
    ((ledger.settle header).settled ++ (ledger.settle header).pending).length =
      (ledger.settled ++ ledger.pending).length := by
  have hsplit := List.length_eq_length_filter_add (l := ledger.pending)
    (Ledger.settles header)
  simp only [Ledger.settle, List.length_append]
  omega

/-- The history when `handle_packet` was called and has updated `pending_`. -/
theorem Accounted.packet (h : Accounted ledger w) {header : Header} {payload : Bytes}
    {f : PhoneLink → PhoneLink}
    (hcurrent : (ledger.settle header).pending.map Account.message = (f w.link).pending ∨
      (f w.link).state = .dead ∧ (f w.link).pending = [])
    (hstate : (f w.link).state ≠ .dead → (f w.link).state = w.link.state)
    (hlsp : (f w.link).lsp = w.link.lsp) :
    Booked time w.trace ledger ((w.record (.packet header payload)).update f) := by
  refine ⟨[⟨w.link, .packet header payload⟩], rfl, ?_⟩
  rw [List.foldl_cons, List.foldl_nil]
  refine
    { kept := fun account haccount => h.kept account (mem_settle haccount)
      current := hcurrent
      limit := ?_
      encoded := ?_
      strays := h.strays
      accepted := ?_ }
  · intro halive account haccount
    rw [World.update_link, World.record_link] at halive ⊢
    have hsame := hstate halive
    have hpending : account ∈ ledger.pending := (List.mem_filter.mp haccount).1
    rw [hsame, hlsp]
    exact h.limit (by rwa [← hsame]) account hpending
  · intro halive
    rw [World.update_link, World.record_link] at halive
    exact h.encoded (by rwa [← hstate halive])
  · have hevent : acceptances (w.trace ++ [⟨w.link, .packet header payload⟩]) =
        acceptances w.trace := acceptances_snoc _ _
    rw [World.update_trace, World.record_trace, hevent, ← h.accepted]
    exact length_settle header

theorem Accounted.acknowledge (h : Accounted ledger w) {header : Header} {payload : Bytes}
    (hrst : header.control &&& kControlRst = 0) :
    Booked time w.trace ledger
      ((w.record (.packet header payload)).update (.acknowledge header)) := by
  obtain ⟨pending, hfields⟩ := acknowledge_fields header w.link
  refine h.packet ?_ (fun _ => by rw [hfields]) (by rw [hfields])
  rcases h.current with hcurrent | ⟨hdead, hnone⟩
  · left
    unfold PhoneLink.acknowledge Ledger.settle Ledger.settles
    rw [← hcurrent]
    by_cases hack : header.control &&& kControlAck = 0
    · rw [if_neg (fun h => h.1 hack), ← hcurrent]
      simp [hrst, hack]
    · by_cases hnone : ledger.pending.map Account.message = []
      · rw [if_neg (fun h => h.2 hnone), ← hcurrent]
        rw [List.map_eq_nil_iff.mp hnone]
        rfl
      · rw [if_pos ⟨hack, hnone⟩, List.filter_map]
        simp [hrst, bne_iff_ne.mpr hack, Function.comp_def]
  · right
    rw [hfields]
    refine ⟨hdead, ?_⟩
    have hempty : (w.link.acknowledge header).pending = [] := by
      unfold PhoneLink.acknowledge
      rw [if_neg (fun h => h.2 hnone), hnone]
    rw [hfields] at hempty
    exact hempty

theorem Accounted.reset (h : Accounted ledger w) (header : Header) (payload : Bytes) :
    Booked time w.trace ledger ((w.record (.packet header payload)).update .reset) :=
  h.packet (Or.inr ⟨rfl, rfl⟩) (fun halive => absurd rfl halive) rfl

/-! ## Retransmissions -/

/-- The account of the message that a retransmission moved is the one charged. -/
theorem charge_moved (time : Option TimePoint) (frame : Bytes) {accounts : List Account}
    {visited rest : List PendingMessage} {message moved : PendingMessage}
    (hcurrent : accounts.map Account.message = visited ++ message :: rest)
    (hmoved : message ≠ moved) :
    ∃ before account after, accounts = before ++ account :: after ∧ account.message = message ∧
      before.map Account.message = visited ∧ after.map Account.message = rest ∧
      charge time frame accounts (visited ++ moved :: rest) =
        some (before ++ { account with
          message := moved
          sent := account.sent ++ [⟨frame, moved.deadline, time⟩] } :: after) := by
  induction visited generalizing accounts with
  | nil =>
      cases accounts with
      | nil => cases hcurrent
      | cons account accounts =>
          obtain ⟨rfl, hrest⟩ := List.cons.inj hcurrent
          refine ⟨[], account, accounts, rfl, rfl, rfl, hrest, ?_⟩
          rw [List.nil_append, charge, if_neg hmoved]
          rfl
  | cons first visited ih =>
      cases accounts with
      | nil => cases hcurrent
      | cons account accounts =>
          obtain ⟨rfl, hrest⟩ := List.cons.inj hcurrent
          obtain ⟨before, charged, after, rfl, hmessage, hbefore, hafter, hcharge⟩ := ih hrest
          refine ⟨account :: before, charged, after, rfl, hmessage, ?_, hafter, ?_⟩
          · rw [List.map_cons, hbefore]
          · rw [List.cons_append, charge, if_pos rfl, hcharge]
            rfl

/-- One more transmission, in a `tick` at or after the deadline of the last. -/
theorem Account.Kept.again {account : Account} (h : account.Kept) {now : TimePoint} (lsp : Lsp)
    (hdue : account.message.deadline ≤ now) (hretries : account.message.retries < account.limit) :
    Account.Kept
      { account with
        message := account.message.again now lsp
        sent := account.sent ++
          [⟨account.message.frame, (account.message.again now lsp).deadline, some now⟩] } where
  bounded := by
    have hcounted := h.counted
    simp only [List.length_append, List.length_singleton]
    omega
  same := by
    intro transmission hmem
    rcases List.mem_append.mp hmem with hbefore | hlast
    · exact h.same transmission hbefore
    · rw [List.mem_singleton.mp hlast]
      rfl
  due := by
    refine h.due.append (by simp) ?_
    intro last hlast next hnext
    have hdated := h.dated
    rw [Option.mem_def.mp hlast] at hdated
    cases hnext
    exact ⟨now, rfl, by rw [Option.some.inj hdated]; exact hdue⟩
  counted := by
    simp only [List.length_append, List.length_singleton, h.counted]
    rfl
  dated := by simp
  frame := h.frame

theorem Accounted.resend (h : Accounted ledger w) {now : TimePoint}
    {visited rest : List PendingMessage} {message : PendingMessage}
    (hstate : w.link.state = .normal) (hpending : w.link.pending = visited ++ message :: rest)
    (hdue : message.deadline ≤ now)
    (hretries : message.retries < w.link.lsp.maxRetransmissions.toNat) :
    Booked (some now) w.trace ledger (resend env now visited message rest w).2 := by
  have halive : w.link.state ≠ .dead := by simp [hstate]
  have hcurrent : ledger.pending.map Account.message = visited ++ message :: rest := by
    rcases h.current with hsame | ⟨hdead, -⟩
    · exact hsame.trans hpending
    · exact absurd hdead halive
  have hmoved : message ≠ message.again now w.link.lsp := by
    intro hsame
    have hcount := congrArg PendingMessage.retries hsame
    simp [PendingMessage.again] at hcount
  obtain ⟨before, account, after, haccounts, rfl, hbefore, hafter, hcharge⟩ :=
    charge_moved (some now) message.frame hcurrent hmoved
  have hmem : account ∈ ledger.pending := by simp [haccounts]
  have hkept := h.kept account (List.mem_append_right _ hmem)
  have hlimit := (h.limit halive account hmem).2
  -- a retransmission is neither the marker nor freshly built
  have htransmit (link : PhoneLink)
      (hlink : link.pending = visited ++ account.message.again now w.link.lsp :: rest) :
      ledger.transmit (some now) link account.message.frame =
        { ledger with
          pending := before ++ { account with
            message := account.message.again now w.link.lsp
            sent := account.sent ++ [⟨account.message.frame,
              (account.message.again now w.link.lsp).deadline, some now⟩] } :: after
          offered := account.message.frame } := by
    unfold Ledger.transmit
    rw [if_neg (by simp [h.encoded halive, hkept.frame]), hlink, hcharge]
  refine ⟨_, rfl, ?_⟩
  rw [List.foldl_cons, List.foldl_nil]
  dsimp only [Ledger.book]
  rw [htransmit _ rfl]
  refine
    { kept := ?_
      current := Or.inl ?_
      limit := ?_
      encoded := fun _ => h.encoded halive
      strays := h.strays
      accepted := ?_ }
  · intro other hother
    simp only [List.mem_append, List.mem_cons] at hother
    rcases hother with hsettled | hother | rfl | hother
    · exact h.kept other (List.mem_append_left _ hsettled)
    · exact h.kept other (by simp [haccounts, hother])
    · exact hkept.again w.link.lsp hdue (by rw [hlimit]; exact hretries)
    · exact h.kept other (by simp [haccounts, hother])
  · rw [resend_link, List.map_append, List.map_cons, hbefore, hafter]
  · intro _ other hother
    rw [resend_link]
    simp only [List.mem_append, List.mem_cons] at hother
    rcases hother with hother | rfl | hother
    · exact h.limit halive other (by simp [haccounts, hother])
    · exact ⟨hstate, hlimit⟩
    · exact h.limit halive other (by simp [haccounts, hother])
  · refine Eq.trans ?_ (acceptances_snoc w.trace _).symm
    rw [← h.accepted, haccounts]
    simp [Event.isAcceptance]

/-! ## Runs -/

/-- Every move of the link keeps the accounts. -/
theorem Accounted.move (h : Accounted ledger w) {w' : World σ} (hmove : Move env time w w') :
    Booked time w.trace ledger w' := by
  cases hmove with
  | buffer buffer => exact (h.update rfl rfl rfl).booked
  | timer next => exact (h.update rfl rfl rfl).booked
  | overflow => exact (h.died rfl (Or.inl rfl)).booked
  | marker hstate => exact h.sendMarker
  | openSyn now hstate =>
      have hopened : Accounted ledger (w.update fun link => { link with state := .negotiate }) :=
        h.relink (Or.inl rfl) fun _ => ⟨by simp [hstate], fun hnormal => by simp [hstate] at hnormal⟩
      exact hopened.sendSyn now false
  | repeatSyn now htime hstate => exact h.sendSyn now false
  | answerSyn now header received hstate =>
      have hadopted : Booked time w.trace ledger
          ((w.record (.synAdopted header received)).update (.adopt header received)) := by
        have hrecord : Booked time w.trace ledger (w.record (.synAdopted header received)) :=
          h.record rfl
        obtain ⟨added, htrace, haccounted⟩ := hrecord
        refine ⟨added, htrace, haccounted.relink (Or.inl rfl) fun halive => ?_⟩
        exact ⟨halive, fun hnormal => absurd hnormal hstate⟩
      exact hadopted.trans fun ledger' h' => h'.sendSyn now true
  | ack => exact h.writePacket [] w.link.sentSequence kControlAck 0
  | control payload => exact h.sendControl payload
  | reset header payload hrst => exact h.reset header payload
  | packet header payload hrst => exact h.acknowledge hrst
  | establish hstate =>
      have hrecord : Booked time w.trace ledger (w.record .established) := h.record rfl
      obtain ⟨added, htrace, haccounted⟩ := hrecord
      refine ⟨added, htrace, haccounted.relink (Or.inl rfl) fun _ => ?_⟩
      exact ⟨by simp [hstate], fun hnormal => by simp [hstate] at hnormal⟩
  | advance header payload hstate =>
      have hrecord : Booked time w.trace ledger (w.record (.advanced header payload)) :=
        h.record rfl
      obtain ⟨added, htrace, haccounted⟩ := hrecord
      exact ⟨added, htrace, haccounted.update rfl rfl rfl⟩
  | delivered payload => exact h.record rfl
  | returned app =>
      have happ : Accounted ledger { w with app := app } :=
        ⟨h.kept, h.current, h.limit, h.encoded, h.strays, h.accepted⟩
      exact happ.record rfl
  | resend now visited message rest htime hstate hpending hdue hretries =>
      subst htime
      exact h.resend hstate hpending hdue hretries
  | giveUp hstate => exact (h.died rfl (Or.inr rfl)).booked

theorem Accounted.moves (h : Accounted ledger w) {w' : World σ} (hmoves : Moves env time w w') :
    Booked time w.trace ledger w' := by
  induction hmoves with
  | refl => exact h.booked
  | tail _ hlast ih => exact ih.trans fun ledger' h' => h'.move hlast

theorem foldl_applyBooked_fst (inputs : List Input) (state : World σ × Ledger) :
    (inputs.foldl (applyBooked env) state).1 = inputs.foldl (apply env) state.1 := by
  induction inputs generalizing state with
  | nil => rfl
  | cons input inputs ih => exact ih (applyBooked env state input)

/-- A call enters the events it added. -/
theorem ledgerOf_append_singleton (env : Env σ) (app : σ) (inputs : List Input) (input : Input) :
    ledgerOf env app (inputs ++ [input]) =
      ((apply env (run env app inputs) input).trace.drop
        (run env app inputs).trace.length).foldl (Ledger.book input.tickTime)
          (ledgerOf env app inputs) := by
  have hworld : (inputs.foldl (applyBooked env) (World.fresh app, {})).1 = run env app inputs :=
    foldl_applyBooked_fst inputs _
  unfold ledgerOf
  rw [List.foldl_append, List.foldl_cons, List.foldl_nil]
  unfold applyBooked at hworld ⊢
  dsimp only
  rw [hworld]

theorem accounted_run (env : Env σ) (app : σ) (inputs : List Input) :
    Accounted (ledgerOf env app inputs) (run env app inputs) := by
  induction inputs using List.reverseRecOn with
  | nil => exact accounted_fresh app
  | append_singleton inputs input ih =>
      obtain ⟨added, htrace, haccounted⟩ :=
        ih.moves (moves_apply env input (pendingEstablished_run env app inputs))
      have hrun : run env app (inputs ++ [input]) = apply env (run env app inputs) input := by
        unfold run
        rw [List.foldl_append]
        rfl
      rw [hrun, ledgerOf_append_singleton, htrace, List.drop_left]
      exact haccounted

/-- Nothing is entered into a settled account. -/
theorem settled_prefix_book (entry : Entry) :
    ledger.settled <+: (ledger.book time entry).settled := by
  unfold Ledger.book
  split
  · exact List.prefix_rfl
  · unfold Ledger.transmit
    split
    · exact List.prefix_rfl
    · split <;> exact List.prefix_rfl
  · unfold Ledger.accept
    split <;> exact List.prefix_rfl
  · exact List.prefix_append _ _
  · exact List.prefix_rfl

theorem settled_prefix_foldl (entries : List Entry) (ledger : Ledger) :
    ledger.settled <+: (entries.foldl (Ledger.book time) ledger).settled := by
  induction entries generalizing ledger with
  | nil => exact List.prefix_rfl
  | cons entry entries ih => exact (settled_prefix_book entry).trans (ih _)

theorem settled_prefix_run (env : Env σ) (app : σ) (inputs more : List Input) :
    (ledgerOf env app inputs).settled <+: (ledgerOf env app (inputs ++ more)).settled := by
  induction more using List.reverseRecOn with
  | nil => rw [List.append_nil]
  | append_singleton more input ih =>
      rw [← List.append_assoc, ledgerOf_append_singleton]
      exact ih.trans (settled_prefix_foldl _ _)

/-! ## Ticks -/

/-- The loop leaves every message in its place, or gives the link up. -/
theorem retransmit_identities (now : TimePoint) (visited rest : List PendingMessage)
    (w : World σ) (hpending : w.link.pending = visited ++ rest) :
    (retransmit env now visited rest w).link.state = .dead ∨
      (retransmit env now visited rest w).link.pending.map PendingMessage.identity =
        w.link.pending.map PendingMessage.identity := by
  induction rest generalizing visited w with
  | nil => exact Or.inr rfl
  | cons message rest ih =>
      rw [retransmit_cons]
      split
      · exact ih (visited ++ [message]) w (by simp [hpending])
      split
      · exact Or.inl rfl
      dsimp only
      split
      · have hlink := resend_link env now visited rest message w
        refine (ih (visited ++ [message.again now w.link.lsp]) _ (by simp [hlink])).imp id ?_
        intro hsame
        rw [hsame, hlink, hpending]
        simp
      · exact Or.inl rfl

/-- The loop gives the link up when it comes to a message that is due and has no retry
left. -/
theorem retransmit_exhausted (now : TimePoint) (visited rest : List PendingMessage)
    (w : World σ) {message : PendingMessage} (hmem : message ∈ rest)
    (hdue : message.deadline ≤ now)
    (hretries : w.link.lsp.maxRetransmissions.toNat ≤ message.retries) :
    (retransmit env now visited rest w).link.state = .dead := by
  induction rest generalizing visited w with
  | nil => cases hmem
  | cons first rest ih =>
      rw [retransmit_cons]
      rcases List.mem_cons.mp hmem with rfl | hlater
      · rw [if_neg (not_lt.mpr hdue), if_pos hretries]
        rfl
      · split
        · exact ih _ w hlater hretries
        split
        · rfl
        dsimp only
        split
        · exact ih _ _ hlater hretries
        · rfl

theorem tick_of_normal (now : TimePoint) (hstate : w.link.state = .normal) :
    tick env now w = retransmit env now [] w.link.pending w := by
  unfold tick
  rw [if_neg (by simp [hstate]), tickMarker_of_not_detect env now (by simp [hstate])]
  dsimp only
  rw [if_neg (by simp [hstate])]

/-- Where nothing is pending `tick` has nothing to remove. -/
theorem tick_pending_nil (now : TimePoint) (hpending : w.link.pending = []) :
    (tick env now w).link.pending = [] := by
  have hmarker : (tickMarker env now w).2.link.pending = [] := by
    unfold tickMarker sendMarker
    rw [World.transmit_eq]
    split
    · cases env.send w.sentFrames kMarker <;> exact hpending
    · exact hpending
  unfold tick
  split
  · exact hpending
  split
  · rename_i w' heq
    rw [heq] at hmarker
    exact hmarker
  · rename_i w' heq
    rw [heq] at hmarker
    have hsyn : (if w'.link.state = .negotiate ∧ now ≥ w'.link.nextSyn then
        sendSyn env now false w' else w').link.pending = [] := by
      split
      · rw [sendSyn_pending]
        exact hmarker
      · exact hmarker
    dsimp only
    rw [retransmit_of_pending_nil env now hsyn]
    exact hsyn

theorem tick_identities (now : TimePoint) (h : PendingEstablished w) :
    (tick env now w).link.state = .dead ∨
      (tick env now w).link.pending.map PendingMessage.identity =
        w.link.pending.map PendingMessage.identity := by
  cases hstate : w.link.state with
  | normal =>
      rw [tick_of_normal now hstate]
      exact retransmit_identities now [] _ w rfl
  | dead =>
      left
      unfold tick
      rw [if_pos hstate]
      exact hstate
  | detect =>
      have hnone := h (Or.inl hstate)
      rw [tick_pending_nil now hnone, hnone]
      exact Or.inr rfl
  | negotiate =>
      have hnone := h (Or.inr hstate)
      rw [tick_pending_nil now hnone, hnone]
      exact Or.inr rfl

theorem Accounted.exhausted (h : Accounted ledger w) {now : TimePoint} {account : Account}
    (hmem : account ∈ ledger.pending) (hexhausted : account.Exhausted now) :
    (tick env now w).link.state = .dead := by
  by_cases hstate : w.link.state = .dead
  · unfold tick
    rw [if_pos hstate]
    exact hstate
  · obtain ⟨hnormal, hlimit⟩ := h.limit hstate account hmem
    obtain ⟨hlength, last, hlast, hdue⟩ := hexhausted
    have hkept := h.kept account (List.mem_append_right _ hmem)
    have hcounted := hkept.counted
    have hdated := hkept.dated
    rw [hlast] at hdated
    have hpending : account.message ∈ w.link.pending := by
      rcases h.current with hcurrent | ⟨hdead, -⟩
      · rw [← hcurrent]
        exact List.mem_map_of_mem hmem
      · exact absurd hdead hstate
    rw [tick_of_normal now hnormal]
    refine retransmit_exhausted now [] _ w hpending ?_ (by omega)
    rw [← Option.some.inj hdated]
    exact hdue

/-! ## Exact retransmission -/

/-- The accounts of a run that left the link in `w` are exact and complete. -/
structure RetransmissionExact (env : Env σ) (w : World σ) (ledger : Ledger) : Prop where
  /-- Every message that `send_control` took has an account. -/
  accepted : (ledger.settled ++ ledger.pending).length = acceptances w.trace
  exact : ∀ account ∈ ledger.settled ++ ledger.pending, account.Exact
  /-- Every frame was just built, is the marker or was charged to an open account. -/
  strays : ledger.strays = []
  /-- The messages of the open accounts are those of `pending_`. -/
  current : w.link.state ≠ .dead → ledger.pending.map Account.message = w.link.pending
  /-- The limit of an open account is that of the link parameters in force. -/
  limit : w.link.state ≠ .dead → ∀ account ∈ ledger.pending,
    account.limit = w.link.lsp.maxRetransmissions.toNat
  exhausted : ∀ now, ∀ account ∈ ledger.pending, account.Exhausted now →
    (tick env now w).link.state = .dead
  removesNone : ∀ now, (tick env now w).link.state = .dead ∨
    (tick env now w).link.pending.map PendingMessage.identity =
      w.link.pending.map PendingMessage.identity

/-- In every run retransmission is bounded and exact, and a settled account stays as it
is however the run goes on. -/
theorem retransmission_exact (env : Env σ) (app : σ) (inputs more : List Input) :
    RetransmissionExact env (run env app inputs) (ledgerOf env app inputs) ∧
      (ledgerOf env app inputs).settled <+: (ledgerOf env app (inputs ++ more)).settled := by
  have haccounted := accounted_run env app inputs
  refine ⟨?_, settled_prefix_run env app inputs more⟩
  exact
    { accepted := haccounted.accepted
      exact := fun account hmem => (haccounted.kept account hmem).toExact
      strays := haccounted.strays
      current := fun halive => haccounted.current.resolve_right fun hdead => halive hdead.1
      limit := fun halive account hmem => (haccounted.limit halive account hmem).2
      exhausted := fun _ _ hmem hexhausted => haccounted.exhausted hmem hexhausted
      removesNone := fun now => tick_identities now (pendingEstablished_run env app inputs) }

/-- The clamped default parameters allow one retry after 100 ms, and the next due `tick`
gives the link up. -/
example :
    let inputs := peerHandshake 3 {} ++ [.sendControl [7], .tick (milliseconds 100)]
    ((ledgerOf (Env.accepting none) () inputs).pending.map fun account =>
        (account.limit, account.sent.map Transmission.tick)) =
          [(1, [none, some (milliseconds 100)])] ∧
      (run (Env.accepting none) () (inputs ++ [.tick (milliseconds 200)])).link.state = .dead := by
  decide +kernel

end Iap2
end Aa2acp
