import Aa2acp.Lib.Bytes
import Aa2acp.Lib.Custody
import Aa2acp.Lib.Scoped
import Aa2acp.Lib.Text

/-!
# The listener of the management UI

`ManagementListener` (`src/bridge/management_listener.cpp`) and the loop of
`bridge_daemon_main.cpp` that accepts its clients and binds it again when the interface or its
address has changed.  Other threads open and close descriptors of their own between any two
system calls, and each system call may fail.

Nothing is done to the descriptor of another one, none is lost and none is closed twice; a
socket listens only when it is bound to an interface or to the loopback address; and a listener
that is down is asked for in every turn until it is back (`listener_confined`).
-/

namespace Aa2acp
namespace Bridge
namespace Listening

open Custody Scoped Text

/-! ## Sockets -/

/-- Addresses are numbers in the order of the host. -/
def kLoopback : UInt32 := 0x7f000001
def kAny : UInt32 := 0

structure Socket where
  /-- `SO_BINDTODEVICE` -/
  device : Option Bytes := none
  address : Option UInt32 := none
  listening : Bool := false
deriving DecidableEq, Repr

/-- Nobody reaches it over another interface. -/
def Socket.Confined (socket : Socket) : Prop :=
  socket.address ≠ none ∧ (socket.device ≠ none ∨ socket.address = some kLoopback)

instance (socket : Socket) : Decidable socket.Confined := inferInstanceAs (Decidable (_ ∧ _))

/-- The system calls on a socket, those that may fail with their success. -/
inductive Act where
  | socket
  | reuseAddress (succeeds : Bool)
  | bindToDevice (interfaceName : Bytes) (succeeds : Bool)
  | bind (address : UInt32) (port : UInt16) (succeeds : Bool)
  | listen (backlog : ℕ) (succeeds : Bool)
  | accept
  | close
deriving DecidableEq, Repr

inductive Phase where
  | unopened
  | opened (socket : Socket)
  | closed
deriving DecidableEq, Repr

/-- The life of a socket: it has to be confined before it listens, and to listen before it
accepts. -/
def life : Act → Phase → Option Phase
  | .socket, .unopened => some (.opened {})
  | .reuseAddress _, .opened socket => some (.opened socket)
  | .bindToDevice interfaceName succeeds, .opened socket =>
      if socket.address ≠ none then none
      else some (.opened (if succeeds then { socket with device := some interfaceName } else socket))
  | .bind address _ succeeds, .opened socket =>
      if socket.address ≠ none then none
      else some (.opened (if succeeds then { socket with address := some address } else socket))
  | .listen _ succeeds, .opened socket =>
      if socket.Confined then some (.opened { socket with listening := succeeds }) else none
  | .accept, .opened socket => if socket.listening then some (.opened socket) else none
  | .close, .opened _ => some .closed
  | _, _ => none

/-! ## The environment -/

/-- An entry of `getifaddrs`; `none` when the address is not IPv4. -/
structure Interface where
  name : Bytes
  ipv4 : Option UInt32
  named : name ≠ []

/-- What `poll` finds: nothing when its time is over. -/
inductive Poll where
  | failed (interrupted : Bool)
  | done (listener signal : Bool)
deriving DecidableEq, Repr

/-- The answers to system calls and reads of shared variables, numbered as they are made. -/
structure Environment where
  /-- The descriptors that the other threads open (`true`) and close before. -/
  strangers : ℕ → List (ℕ × Bool)
  /-- The number of a new descriptor. -/
  socket : ℕ → Option ℕ
  succeeds : ℕ → Bool
  getifaddrs : ℕ → Option (List Interface)
  /-- `config.wifi_interface` -/
  wifiInterface : ℕ → Bytes
  /-- A handler has set `management_listener_rebind_requested`. -/
  requests : ℕ → Bool
  poll : ℕ → Poll
  /-- `read` of the descriptor for signals gets a whole one. -/
  signalRead : ℕ → Bool

structure ManagementListener where
  port : UInt16
  fd : Option ℕ := none
  address : UInt32 := kLoopback
  interfaceName : Bytes
deriving DecidableEq, Repr

structure World where
  listener : ManagementListener
  ledger : Ledger Act := {}
  calls : ℕ := 0
  /-- `management_listener_rebind_requested` -/
  requested : Bool := false

/-- A thread that is not ours has no business with our descriptors. -/
def strange (ledger : Ledger Act) (change : ℕ × Bool) : Ledger Act :=
  match ledger.held change.1 with
  | some (.ours _) => ledger
  | _ => ledger.strangers change.1 (if change.2 then some .stranger else none)

namespace Environment

variable (env : Environment)

/-- The next call, and what was before it. -/
def enter (w : World) : World :=
  { w with calls := w.calls + 1, ledger := (env.strangers w.calls).foldl strange w.ledger }

/-- `socket`; the kernel gives a number that is free. -/
def newSocket (w : World) : Option ℕ × World :=
  match env.socket w.calls with
  | none => (none, env.enter w)
  | some number =>
      if (env.enter w).ledger.held number = none then
        (some number, { env.enter w with ledger := (env.enter w).ledger.acquire number .socket })
      else (none, env.enter w)

/-- A call on a socket that may fail. -/
def attempt (number : ℕ) (act : Bool → Act) (w : World) : Bool × World :=
  (env.succeeds w.calls,
    { env.enter w with ledger := (env.enter w).ledger.touch number (act (env.succeeds w.calls)) })

def close (number : ℕ) (w : World) : World :=
  { env.enter w with ledger := (env.enter w).ledger.release number .close }

def readInterfaces (w : World) : Option (List Interface) × World := (env.getifaddrs w.calls, env.enter w)

def readConfig (w : World) : Bytes × World := (env.wifiInterface w.calls, env.enter w)

/-- `poll` passes over a descriptor of -1. -/
def waitForClients (w : World) : Poll × World :=
  (match env.poll w.calls with
    | .failed interrupted => .failed interrupted
    | .done listener signal => .done (listener && w.listener.fd.isSome) signal, env.enter w)

def readSignal (w : World) : Bool × World := (env.signalRead w.calls, env.enter w)

/-- `exchange(false)` -/
def exchangeRequested (w : World) : Bool × World :=
  (w.requested || env.requests w.calls, { env.enter w with requested := false })

/-- `accept4`; without a listener it fails. -/
def accept (w : World) : World :=
  match w.listener.fd with
  | none => env.enter w
  | some fd => { env.enter w with ledger := (env.enter w).ledger.touch fd .accept }

end Environment

/-! ## The listener -/

def ipv4AddressForInterface (addresses : Option (List Interface)) (interfaceName : Bytes) : Option UInt32 :=
  (addresses.getD []).findSome? fun entry => if entry.name = interfaceName then entry.ipv4 else none

section

variable (env : Environment)

/-- The way out of `open_listener` when a call fails. -/
def closeUnless (listener : ℕ) (succeeds : Bool) : Scoped World (Option (ℕ × UInt32)) Unit :=
  if succeeds then pure ()
  else do
    update (env.close listener)
    leave none

def bindToDevice (listener : ℕ) (interfaceName : Bytes) : Scoped World (Option (ℕ × UInt32)) Unit :=
  if interfaceName = [] then pure ()
  else do
    let succeeds ← call (env.attempt listener (.bindToDevice interfaceName))
    closeUnless env listener succeeds

/-- `open_listener`, with the address. -/
def openListener (port : UInt16) (interfaceName : Bytes) :
    Scoped World (Option (ℕ × UInt32)) (Option (ℕ × UInt32)) := do
  let opened ← call env.newSocket
  let listener ← ofOption opened none
  let _ ← call (env.attempt listener .reuseAddress)
  bindToDevice env listener interfaceName
  let addresses ← call env.readInterfaces
  let address := (ipv4AddressForInterface addresses interfaceName).getD
    (if interfaceName = [] then kLoopback else kAny)
  let bound ← call (env.attempt listener (.bind address port))
  closeUnless env listener bound
  let listening ← call (env.attempt listener (.listen 8))
  closeUnless env listener listening
  pure (some (listener, address))

/-- A call of `open_listener`. -/
def callOpen (port : UInt16) (interfaceName : Bytes) : Scoped World Bool (Option (ℕ × UInt32)) :=
  call fun w => (openListener env port interfaceName).run w

/-- The second try of `rebind`, for which the old listener is closed; with `previous_closed`. -/
def openAgain (previous : ManagementListener) (interfaceName : Bytes) (first : Option (ℕ × UInt32)) :
    Scoped World Bool (Option (ℕ × UInt32) × Bool) :=
  match first, previous.fd with
  | none, some previousFd => do
      update fun w => { env.close previousFd w with listener := { w.listener with fd := none } }
      let replacement ← callOpen env previous.port interfaceName
      pure (replacement, true)
  | first, _ => pure (first, false)

/-- `rebind` without a replacement: the old binding is restored if it was given up. -/
def restore (previous : ManagementListener) : Scoped World Bool Bool := do
  let now ← read World.listener
  match previous.fd, now.fd with
  | some _, none => do
      let restored ← callOpen env previous.port previous.interfaceName
      match restored with
      | some (fd, address) => do
          update fun w => { w with listener := { w.listener with fd := some fd, address } }
          pure false
      | none => do
          update fun w => { w with listener := { w.listener with fd := none, address := previous.address } }
          pure false
  | _, _ => pure false

/-- The old listener, when it is still there. -/
def closePrevious (previous : ManagementListener) (previousClosed : Bool) (replacement : ℕ) :
    Scoped World Bool Unit :=
  match previous.fd with
  | none => pure ()
  | some previousFd =>
      if previousClosed = false ∧ previousFd ≠ replacement then update (env.close previousFd) else pure ()

def rebind (interfaceName : Bytes) : Scoped World Bool Bool := do
  let previous ← read World.listener
  let first ← callOpen env previous.port interfaceName
  let (replacement, previousClosed) ← openAgain env previous interfaceName first
  match replacement with
  | none => restore env previous
  | some (fd, address) => do
      closePrevious env previous previousClosed fd
      update fun w => { w with listener := { w.listener with fd := some fd, address, interfaceName } }
      pure true

/-- `address_changed` -/
def addressChanged (w : World) : Bool × World :=
  if w.listener.interfaceName = [] then (false, w)
  else if w.listener.fd = none then (true, w)
  else
    let (addresses, w) := env.readInterfaces w
    match ipv4AddressForInterface addresses w.listener.interfaceName with
    | some current => (current ≠ w.listener.address, w)
    | none => (w.listener.address ≠ kAny, w)

/-- The constructor. -/
def construct (port : UInt16) (interfaceName : Bytes) : World :=
  match (openListener env port interfaceName).run { listener := { port, interfaceName } } with
  | (none, w) => w
  | (some (fd, address), w) => { w with listener := { w.listener with fd := some fd, address } }

/-- The destructor. -/
def destroy (w : World) : World :=
  match w.listener.fd with
  | none => w
  | some fd => env.close fd w

/-! ## The daemon -/

/-- `rebind_management_listener` -/
def rebindManagementListener : Scoped World Bool Bool := do
  let requested ← call env.exchangeRequested
  unlessLeave (requested = true) false
  let wifiInterface ← call env.readConfig
  let rebound ← call fun w => (rebind env wifiInterface).run w
  if rebound then pure true
  else do
    update fun w => { w with requested := true }
    pure false

/-- The head of the loop. -/
def noticeChange (w : World) : World :=
  let (wifiInterface, w) := env.readConfig w
  if wifiInterface ≠ w.listener.interfaceName then { w with requested := true }
  else
    let (changed, w) := addressChanged env w
    if changed then { w with requested := true } else w

/-- One turn of the loop; it returns when the loop is left. -/
def turn : Scoped World Unit Unit := do
  update (noticeChange env)
  let polled ← call env.waitForClients
  match polled with
  | .failed interrupted => unlessLeave (interrupted = true) ()
  | .done ready signal => do
      let rebound ← call fun w => (rebindManagementListener env).run w
      if rebound then pure ()
      else if signal then do
        let whole ← call env.readSignal
        unlessLeave (whole = false) ()
      else if ready then update env.accept
      else pure ()

def loop : ℕ → World → World
  | 0, w => w
  | turns + 1, w =>
      match turn env w with
      | (.ok (), w) => loop turns w
      | (.error (), w) => w

/-- The daemon ends at once without a listener. -/
def serve (port : UInt16) (interfaceName : Bytes) (turns : ℕ) : World :=
  let w := construct env port interfaceName
  if w.listener.fd = none then w else loop env turns w

end

/-! ## Which sockets are open -/

/-- Exactly these sockets of ours are open. -/
def Opens (sockets : ℕ → Option Socket) (w : World) : Prop :=
  Kept life .unopened .closed
    (fun place number phase => place = number ∧ ∃ socket, sockets number = some socket ∧ phase = .opened socket)
    w.ledger

/-- What is not touched meanwhile. -/
def Keeps (listener : ManagementListener) (requested : Bool) (w : World) : Prop :=
  w.listener = listener ∧ w.requested = requested

variable {env : Environment} {sockets : ℕ → Option Socket} {w : World} {number : ℕ} {socket : Socket}

theorem opens_nothing (listener : ManagementListener) : Opens (fun _ => none) { listener } :=
  Kept.empty fun _ _ _ hold => by
    obtain ⟨-, socket, hsocket, -⟩ := hold
    cases hsocket

theorem Opens.strange (h : Opens sockets w) (change : ℕ × Bool) :
    Opens sockets { w with ledger := strange w.ledger change } := by
  unfold Listening.strange
  split
  · exact h
  · rename_i hother
    refine Kept.strangers h (fun id hours => hother id hours) fun id hours => ?_
    split at hours <;> cases hours

theorem Opens.enter (h : Opens sockets w) : Opens sockets (env.enter w) := by
  have hall : ∀ (changes : List (ℕ × Bool)) (ledger : Ledger Act), Opens sockets { w with ledger } →
      Opens sockets { w with ledger := changes.foldl Listening.strange ledger } := by
    intro changes
    induction changes with
    | nil => exact fun _ hledger => hledger
    | cons change changes ih => exact fun _ hledger => ih _ (hledger.strange change)
  exact hall _ _ h

theorem Opens.attempt (h : Opens sockets w) (hsocket : sockets number = some socket) {act : Bool → Act}
    {next : Socket} (hact : life (act (env.succeeds w.calls)) (.opened socket) = some (.opened next)) :
    Opens (Function.update sockets number (some next)) (env.attempt number act w).2 := by
  have henter : Opens sockets (env.enter w) := h.enter
  refine Kept.touch henter ⟨rfl, socket, hsocket, rfl⟩ hact
    (fun n now => ?_) fun other hother n now => ?_
  · by_cases hn : n = number
    · subst hn
      simp
    · simp [hn, Ne.symm hn]
  · constructor
    · rintro ⟨rfl, found, hfound, rfl⟩
      rw [Function.update_of_ne hother] at hfound
      exact ⟨rfl, found, hfound, rfl⟩
    · rintro ⟨rfl, found, hfound, rfl⟩
      exact ⟨rfl, found, by rwa [Function.update_of_ne hother], rfl⟩

theorem Opens.close (h : Opens sockets w) (hsocket : sockets number = some socket) :
    Opens (Function.update sockets number none) (env.close number w) := by
  have henter : Opens sockets (env.enter w) := h.enter
  refine Kept.release henter ⟨rfl, socket, hsocket, rfl⟩ rfl
    (fun n now => ?_) fun other hother n now => ?_
  · by_cases hn : n = number
    · subst hn
      simp
    · simp [hn, Ne.symm hn]
  · constructor
    · rintro ⟨rfl, found, hfound, rfl⟩
      rw [Function.update_of_ne hother] at hfound
      exact ⟨rfl, found, hfound, rfl⟩
    · rintro ⟨rfl, found, hfound, rfl⟩
      exact ⟨rfl, found, by rwa [Function.update_of_ne hother], rfl⟩

/-- A new socket has a number that none of ours has. -/
theorem Opens.newSocket (env : Environment) (h : Opens sockets w) :
    match env.newSocket w with
    | (none, w) => Opens sockets w
    | (some number, w) => sockets number = none ∧ Opens (Function.update sockets number (some {})) w := by
  unfold Environment.newSocket
  cases env.socket w.calls with
  | none => exact h.enter
  | some number =>
      dsimp only
      by_cases hfree : (env.enter w).ledger.held number = none
      · rw [if_pos hfree]
        have henter : Opens sockets (env.enter w) := h.enter
        have hnone : sockets number = none := by
          by_contra hsome
          obtain ⟨socket, hsocket⟩ := Option.ne_none_iff_exists'.mp hsome
          obtain ⟨id, hid⟩ := Kept.exists_ours henter ⟨rfl, socket, hsocket, rfl⟩
          rw [hfree] at hid
          cases hid
        refine ⟨hnone, Kept.acquire henter number hfree rfl (fun n now => ?_) fun other hother n now => ?_⟩
        · by_cases hn : n = number
          · subst hn
            simp [hnone]
          · simp [hn, Ne.symm hn]
        · constructor
          · rintro ⟨rfl, found, hfound, rfl⟩
            rw [Function.update_of_ne hother] at hfound
            exact ⟨rfl, found, hfound, rfl⟩
          · rintro ⟨rfl, found, hfound, rfl⟩
            exact ⟨rfl, found, by rwa [Function.update_of_ne hother], rfl⟩
      · rw [if_neg hfree]
        exact h.enter

/-! ## The functions of the listener -/

/-- A socket that is bound to the interface, if there is one. -/
def onDevice (interfaceName : Bytes) : Socket where
  device := if interfaceName = [] then none else some interfaceName

/-- A socket that listens, after `open_listener`. -/
def boundTo (interfaceName : Bytes) (address : UInt32) : Socket :=
  { onDevice interfaceName with address := some address, listening := true }

variable {port : UInt16} {interfaceName : Bytes} {listener : ManagementListener} {requested : Bool}

/-- A socket is being made ready. -/
structure Opening (sockets : ℕ → Option Socket) (listener : ManagementListener) (requested : Bool) (number : ℕ)
    (socket : Socket) (w : World) : Prop where
  fresh : sockets number = none
  opens : Opens (Function.update sockets number (some socket)) w
  keeps : Keeps listener requested w

/-- What `open_listener` returns. -/
def Opened (sockets : ℕ → Option Socket) (interfaceName : Bytes) (listener : ManagementListener)
    (requested : Bool) : Option (ℕ × UInt32) → World → Prop
  | none, w => Opens sockets w ∧ Keeps listener requested w
  | some (number, address), w =>
      Opening sockets listener requested number (boundTo interfaceName address) w ∧
        (interfaceName = [] → address = kLoopback)

theorem Opening.attempt (h : Opening sockets listener requested number socket w) {act : Bool → Act}
    {next : Socket} (hact : ∀ succeeds, life (act succeeds) (.opened socket) =
      some (.opened (if succeeds then next else socket))) :
    Opening sockets listener requested number (if (env.attempt number act w).1 then next else socket)
      (env.attempt number act w).2 where
  fresh := h.fresh
  opens := by
    have hopens := h.opens.attempt (Function.update_self _ _ _) (hact (env.succeeds w.calls))
    rwa [Function.update_idem] at hopens
  keeps := h.keeps

theorem Opening.close (h : Opening sockets listener requested number socket w) :
    Opens sockets (env.close number w) ∧ Keeps listener requested (env.close number w) := by
  have hopens : Opens _ (env.close number w) := h.opens.close (Function.update_self _ _ _)
  rw [Function.update_idem, Function.update_eq_self_iff.mpr h.fresh.symm] at hopens
  exact ⟨hopens, h.keeps⟩

theorem closeUnless_spec {next : Socket} (succeeds : Bool) :
    Triple (Opening sockets listener requested number (if succeeds then next else socket))
      (closeUnless env number succeeds) (fun _ => Opening sockets listener requested number next)
      (Opened sockets interfaceName listener requested) := by
  cases succeeds with
  | true => exact Triple.pure fun _ h => h
  | false => exact Triple.update_bind (fun _ h => h.close) (Triple.leave fun _ h => h)

/-- A call that may fail, and the way out when it does. -/
theorem attempt_bind {act : Bool → Act} {t : Socket} {α : Type}
    {f : Unit → Scoped World (Option (ℕ × UInt32)) α} {last : α → World → Prop}
    (hact : ∀ succeeds, life (act succeeds) (.opened socket) =
      some (.opened (if succeeds then t else socket)))
    (hf : Triple (Opening sockets listener requested number t) (f ()) last
      (Opened sockets interfaceName listener requested)) :
    Triple (Opening sockets listener requested number socket)
      (call (env.attempt number act) >>= fun succeeds => closeUnless env number succeeds >>= f) last
      (Opened sockets interfaceName listener requested) :=
  Triple.call_bind (Q := fun succeeds =>
      Opening sockets listener requested number (if succeeds then t else socket))
    (fun _ h => h.attempt hact) fun succeeds => Triple.bind (closeUnless_spec succeeds) fun _ => hf

theorem bindToDevice_spec :
    Triple (Opening sockets listener requested number {}) (bindToDevice env number interfaceName)
      (fun _ => Opening sockets listener requested number (onDevice interfaceName))
      (Opened sockets interfaceName listener requested) := by
  unfold bindToDevice onDevice
  by_cases hname : interfaceName = []
  · rw [if_pos hname, if_pos hname]
    exact Triple.pure fun _ h => h
  · rw [if_neg hname, if_neg hname]
    refine Triple.call_bind (Q := fun succeeds => Opening sockets listener requested number
      (if succeeds then { device := some interfaceName } else {})) (fun _ h => h.attempt ?_)
        fun succeeds => closeUnless_spec succeeds
    intro succeeds
    cases succeeds <;> rfl

theorem ipv4AddressForInterface_nil (addresses : Option (List Interface)) :
    ipv4AddressForInterface addresses [] = none :=
  List.findSome?_eq_none_iff.mpr fun entry _ => if_neg entry.named

theorem openListener_spec :
    Triple (fun w => Opens sockets w ∧ Keeps listener requested w) (openListener env port interfaceName)
      (Opened sockets interfaceName listener requested) (Opened sockets interfaceName listener requested) := by
  refine Triple.call_bind (Q := fun opened w =>
    match opened with
    | none => Opens sockets w ∧ Keeps listener requested w
    | some number => Opening sockets listener requested number {} w) ?_ fun opened => ?_
  · rintro w ⟨hopens, hkeeps⟩
    have hnew := hopens.newSocket env
    have hsame : Keeps listener requested (env.newSocket w).2 := by
      unfold Environment.newSocket
      cases env.socket w.calls with
      | none => exact hkeeps
      | some number =>
          dsimp only
          split <;> exact hkeeps
    revert hnew hsame
    rcases env.newSocket w with ⟨_ | number, w'⟩
    · exact fun hnew hsame => ⟨hnew, hsame⟩
    · exact fun hnew hsame => ⟨hnew.1, hnew.2, hsame⟩
  refine Triple.ofOption_bind (fun number hnumber => ?_) fun hnone w h => ?_
  · subst hnumber
    refine Triple.call_bind (Q := fun _ => Opening sockets listener requested number {})
      (fun w h => ?_) fun _ => ?_
    · have hreused : Opening sockets listener requested number
          (if (env.attempt number .reuseAddress w).1 then {} else {}) (env.attempt number .reuseAddress w).2 :=
        h.attempt fun succeeds => by cases succeeds <;> rfl
      rwa [ite_self] at hreused
    refine Triple.bind bindToDevice_spec fun _ => ?_
    refine Triple.call_bind (Q := fun _ => Opening sockets listener requested number (onDevice interfaceName))
      (fun _ h => ⟨h.fresh, h.opens.enter, h.keeps⟩) fun addresses => ?_
    dsimp only
    generalize haddress : (ipv4AddressForInterface addresses interfaceName).getD _ = address
    have hloopback : interfaceName = [] → address = kLoopback := by
      rintro rfl
      rw [← haddress, ipv4AddressForInterface_nil, Option.getD_none, if_pos rfl]
    have hconfined : Socket.Confined { onDevice interfaceName with address := some address } := by
      refine ⟨nofun, ?_⟩
      by_cases hname : interfaceName = []
      · exact Or.inr (congrArg some (hloopback hname))
      · exact Or.inl (by rw [onDevice, if_neg hname]; exact nofun)
    refine attempt_bind (t := { onDevice interfaceName with address := some address })
      (fun succeeds => by cases succeeds <;> rfl) ?_
    refine attempt_bind (t := boundTo interfaceName address) (fun succeeds => ?_) ?_
    · rw [life, if_pos hconfined]
      cases succeeds <;> rfl
    · exact Triple.pure fun _ h => ⟨h, hloopback⟩
  · subst hnone
    exact h

/-! ## Between the calls -/

/-- The one socket that the listener has, if it has one. -/
def serving (listener : ManagementListener) : ℕ → Option Socket :=
  match listener.fd with
  | none => fun _ => none
  | some fd => Function.update (fun _ => none) fd (some (boundTo listener.interfaceName listener.address))

theorem serving_of_fd {fd : ℕ} (h : listener.fd = some fd) :
    serving listener =
      Function.update (fun _ => none) fd (some (boundTo listener.interfaceName listener.address)) := by
  unfold serving
  rw [h]

theorem serving_of_none (h : listener.fd = none) : serving listener = fun _ => none := by
  unfold serving
  rw [h]

def Sound (w : World) : Prop := Opens (serving w.listener) w

theorem callOpen_bind {α : Type} {f : Option (ℕ × UInt32) → Scoped World Bool α} {last : α → World → Prop}
    {exit : Bool → World → Prop}
    (hf : ∀ result, Triple (Opened sockets interfaceName listener requested result) (f result) last exit) :
    Triple (fun w => Opens sockets w ∧ Keeps listener requested w) (callOpen env port interfaceName >>= f)
      last exit :=
  Triple.call_bind (fun _ h => openListener_spec.run h) hf

/-- Where `rebind` is after its second try. -/
def TriedAgain (listener : ManagementListener) (interfaceName : Bytes) (requested : Bool)
    (outcome : Option (ℕ × UInt32) × Bool) (w : World) : Prop :=
  if outcome.2 then
    listener.fd ≠ none ∧
      Opened (fun _ => none) interfaceName { listener with fd := none } requested outcome.1 w
  else
    (outcome.1 = none → listener.fd = none) ∧
      Opened (serving listener) interfaceName listener requested outcome.1 w

theorem openAgain_spec (first : Option (ℕ × UInt32)) {exit : Bool → World → Prop} :
    Triple (Opened (serving listener) interfaceName listener requested first)
      (openAgain env listener interfaceName first) (TriedAgain listener interfaceName requested) exit := by
  cases first with
  | some found => exact Triple.pure fun w h => ⟨nofun, h⟩
  | none =>
      cases hfd : listener.fd with
      | none =>
          unfold openAgain
          rw [hfd]
          exact Triple.pure fun w h => ⟨fun _ => hfd, h⟩
      | some previousFd =>
          unfold openAgain
          rw [hfd]
          refine Triple.update_bind (M := fun w => Opens (fun _ => none) w ∧
            Keeps { listener with fd := none } requested w) ?_ ?_
          · rintro w ⟨hopens, hlistener, hrequested⟩
            rw [serving_of_fd hfd] at hopens
            have hclosed : Opens _ (env.close previousFd w) := hopens.close (Function.update_self _ _ _)
            rw [Function.update_idem, Function.update_eq_self_iff.mpr rfl] at hclosed
            exact ⟨hclosed, congrArg (fun l : ManagementListener => { l with fd := none }) hlistener,
              hrequested⟩
          · refine callOpen_bind fun replacement => Triple.pure fun w h => ?_
            exact ⟨hfd ▸ Option.some_ne_none _, h⟩

/-- What `rebind` leaves behind. -/
structure Rebound (listener : ManagementListener) (interfaceName : Bytes) (requested result : Bool) (w : World) :
    Prop where
  sound : Sound w
  requested : w.requested = requested
  moved : result = true → w.listener.interfaceName = interfaceName ∧ w.listener.fd ≠ none
  kept : result = false → w.listener.interfaceName = listener.interfaceName

/-- The listener was open and is closed, and could not be replaced. -/
theorem restore_of_closed (hopen : listener.fd ≠ none) {exit : Bool → World → Prop} :
    Triple (fun w => Opens (fun _ => none) w ∧ Keeps { listener with fd := none } requested w)
      (restore env listener) (Rebound listener interfaceName requested) exit := by
  obtain ⟨previousFd, hfd⟩ := Option.ne_none_iff_exists'.mp hopen
  refine Triple.read_bind_of (v := { listener with fd := none }) (fun w h => h.2.1) ?_
  rw [hfd]
  refine callOpen_bind fun restored => ?_
  cases restored with
  | none =>
      refine Triple.update_bind (M := Rebound listener interfaceName requested false) ?_
        (Triple.pure fun _ h => h)
      rintro w ⟨hopens, hlistener, hrequested⟩
      have hname := congrArg ManagementListener.interfaceName hlistener
      refine ⟨?_, hrequested, nofun, fun _ => hname⟩
      show Opens (serving _) _
      rw [serving_of_none rfl]
      exact hopens
  | some found =>
      obtain ⟨fd, address⟩ := found
      refine Triple.update_bind (M := Rebound listener interfaceName requested false) ?_
        (Triple.pure fun _ h => h)
      rintro w ⟨⟨-, hopens, hlistener, hrequested⟩, -⟩
      have hname := congrArg ManagementListener.interfaceName hlistener
      refine ⟨?_, hrequested, nofun, fun _ => hname⟩
      show Opens (serving _) _
      rw [serving_of_fd rfl]
      dsimp only
      rw [hname]
      exact hopens

/-- There was no listener, and there is none. -/
theorem restore_of_none (hnone : listener.fd = none) {exit : Bool → World → Prop} :
    Triple (fun w => Opens (serving listener) w ∧ Keeps listener requested w)
      (restore env listener) (Rebound listener interfaceName requested) exit := by
  refine Triple.read_bind_of (v := listener) (fun w h => h.2.1) ?_
  rw [hnone]
  refine Triple.pure ?_
  rintro w ⟨hopens, hlistener, hrequested⟩
  refine ⟨?_, hrequested, nofun, fun _ => congrArg ManagementListener.interfaceName hlistener⟩
  show Opens (serving w.listener) w
  rw [hlistener]
  exact hopens

/-- Only the replacement is open in the end. -/
theorem closePrevious_spec {previousClosed : Bool} {fd : ℕ} {address : UInt32} {exit : Bool → World → Prop} :
    Triple (TriedAgain listener interfaceName requested (some (fd, address), previousClosed))
      (closePrevious env listener previousClosed fd)
      (fun _ w => Opens (Function.update (fun _ => none) fd (some (boundTo interfaceName address))) w ∧
        w.requested = requested) exit := by
  unfold closePrevious
  cases previousClosed with
  | true =>
      cases hfd : listener.fd with
      | none => exact fun w h => absurd hfd h.1
      | some previousFd =>
          refine Triple.pure ?_
          rintro w ⟨-, ⟨-, hopens, -, hrequested⟩, -⟩
          exact ⟨hopens, hrequested⟩
  | false =>
      cases hfd : listener.fd with
      | none =>
          refine Triple.pure ?_
          rintro w ⟨-, ⟨-, hopens, -, hrequested⟩, -⟩
          rw [serving_of_none hfd] at hopens
          exact ⟨hopens, hrequested⟩
      | some previousFd =>
          refine Triple.ite (fun _ => Triple.update ?_) fun hsame => ?_
          · rintro w ⟨-, ⟨hfresh, hopens, -, hrequested⟩, -⟩
            rw [serving_of_fd hfd] at hfresh hopens
            have hother : previousFd ≠ fd := by
              rintro rfl
              rw [Function.update_self] at hfresh
              cases hfresh
            rw [Function.update_comm hother] at hopens
            have hclosed : Opens _ (env.close previousFd w) := hopens.close (Function.update_self _ _ _)
            rw [Function.update_idem, Function.update_eq_self_iff.mpr] at hclosed
            · exact ⟨hclosed, hrequested⟩
            · rw [Function.update_of_ne hother]
          · rintro w ⟨-, ⟨hfresh, -, -, -⟩, -⟩
            rw [serving_of_fd hfd] at hfresh
            have heq : previousFd = fd := not_not.mp fun hother => hsame ⟨rfl, hother⟩
            rw [heq, Function.update_self] at hfresh
            cases hfresh

theorem rebind_spec :
    Triple (fun w => Sound w ∧ Keeps listener requested w) (rebind env interfaceName)
      (Rebound listener interfaceName requested) (Rebound listener interfaceName requested) := by
  refine Triple.read_bind_of (v := listener) (fun w h => h.2.1) ?_
  refine Triple.weaken (P := fun w => Opens (serving listener) w ∧ Keeps listener requested w) ?_ ?_
    (fun _ _ h => h) fun _ _ h => h
  · refine callOpen_bind fun first => Triple.bind (openAgain_spec first) fun outcome => ?_
    obtain ⟨replacement, previousClosed⟩ := outcome
    cases replacement with
    | none =>
        cases previousClosed with
        | true => exact fun w h => restore_of_closed h.1 w h.2
        | false => exact fun w h => restore_of_none (h.1 rfl) w h.2
    | some found =>
        obtain ⟨fd, address⟩ := found
        refine Triple.bind closePrevious_spec fun _ => ?_
        refine Triple.update_bind (M := Rebound listener interfaceName requested true) ?_
          (Triple.pure fun _ h => h)
        rintro w ⟨hopens, hrequested⟩
        refine ⟨?_, hrequested, fun _ => ⟨rfl, Option.some_ne_none _⟩, nofun⟩
        show Opens (serving _) _
        rw [serving_of_fd rfl]
        exact hopens
  · rintro w ⟨hsound, hkeeps⟩
    refine ⟨?_, hkeeps⟩
    rw [← hkeeps.1]
    exact hsound

/-! ## The loop of the daemon -/

/-- A listener that is down is asked for. -/
structure Attended (w : World) : Prop where
  sound : Sound w
  attended : w.listener.fd = none → w.requested = true

theorem Attended.enter (h : Attended w) : Attended (env.enter w) := ⟨Opens.enter h.sound, h.attended⟩

theorem Attended.noticeChange (h : Attended w) : Attended (noticeChange env w) := by
  have hasked : ∀ {w : World}, Attended w → Attended { w with requested := true } :=
    fun hw => ⟨hw.sound, fun _ => rfl⟩
  have hchanged : ∀ {w : World}, Attended w → Attended (addressChanged env w).2 := by
    intro w hw
    unfold addressChanged
    split
    · exact hw
    · split
      · exact hw
      · dsimp only
        split <;> exact hw.enter
  unfold Listening.noticeChange
  dsimp only
  split
  · exact hasked h.enter
  · split
    · exact hasked (hchanged h.enter)
    · exact hchanged h.enter

theorem rebindManagementListener_spec :
    Triple Attended (rebindManagementListener env) (fun _ => Attended) (fun _ => Attended) := by
  refine Triple.call_bind (Q := fun asked w => Sound w ∧ w.requested = false ∧
    (asked = false → w.listener.fd ≠ none)) (fun w h => ?_) fun asked => ?_
  · refine ⟨Opens.enter h.sound, rfl, fun hasked hnone => ?_⟩
    have hrequested := h.attended hnone
    simp [Environment.exchangeRequested, hrequested] at hasked
  cases asked with
  | false => exact fun w h => ⟨h.1, fun hnone => absurd hnone (h.2.2 rfl)⟩
  | true =>
      refine Triple.unlessLeave_pass rfl ?_
      refine Triple.call_bind (Q := fun _ => Sound) (fun w h => Opens.enter h.1) fun wifiInterface => ?_
      refine Triple.call_bind (Q := fun rebound w => Sound w ∧ (rebound = true → w.listener.fd ≠ none))
        (fun w h => ?_) fun rebound => ?_
      · have hrebound : Rebound w.listener wifiInterface w.requested ((rebind env wifiInterface).run w).1
            ((rebind env wifiInterface).run w).2 := rebind_spec.run ⟨h, rfl, rfl⟩
        exact ⟨hrebound.sound, fun hok => (hrebound.moved hok).2⟩
      · cases rebound with
        | true => exact Triple.pure fun w h => ⟨h.1, fun hnone => absurd hnone (h.2 rfl)⟩
        | false =>
            exact Triple.update_bind (M := Attended) (fun w h => ⟨h.1, fun _ => rfl⟩)
              (Triple.pure fun _ h => h)

theorem Attended.accept (h : Attended w) : Attended (env.accept w) := by
  unfold Environment.accept
  cases hfd : w.listener.fd with
  | none => exact h.enter
  | some fd =>
      have hsound := h.sound
      unfold Sound at hsound
      rw [serving_of_fd hfd] at hsound
      have henter : Opens _ (env.enter w) := hsound.enter
      refine ⟨?_, h.attended⟩
      show Opens (serving w.listener) _
      rw [serving_of_fd hfd]
      exact Kept.touchSame henter ⟨rfl, _, Function.update_self _ _ _, rfl⟩ rfl

theorem turn_spec : Triple Attended (turn env) (fun _ => Attended) (fun _ => Attended) := by
  refine Triple.update_bind (fun w h => h.noticeChange) ?_
  refine Triple.call_bind (Q := fun _ => Attended) (fun w h => h.enter) fun polled => ?_
  cases polled with
  | failed interrupted => exact Triple.unlessLeave (fun _ h _ => h) fun _ h _ => h
  | done ready signal =>
      refine Triple.call_bind (Q := fun _ => Attended) (fun w h => rebindManagementListener_spec.run h)
        fun rebound => ?_
      refine Triple.ite (fun _ => Triple.pure fun _ h => h) fun _ => ?_
      refine Triple.ite (fun _ => ?_) fun _ => ?_
      · refine Triple.call_bind (Q := fun _ => Attended) (fun w h => h.enter) fun whole => ?_
        exact Triple.unlessLeave (fun _ h _ => h) fun _ h _ => h
      · exact Triple.ite (fun _ => Triple.update fun _ h => h.accept) fun _ => Triple.pure fun _ h => h

theorem Attended.loop (turns : ℕ) (h : Attended w) : Attended (loop env turns w) := by
  induction turns generalizing w with
  | zero => exact h
  | succ turns ih =>
      have hspec : Triple Attended (turn env) (fun _ => Attended) (fun _ => Attended) := turn_spec
      have hturn := hspec w h
      rw [Listening.loop]
      rcases hrun : turn env w with ⟨_ | _, w'⟩ <;> rw [hrun] at hturn
      · exact hturn
      · exact ih hturn

theorem sound_construct : Sound (construct env port interfaceName) := by
  have hnew : Opens (fun _ => none) ({ listener := { port, interfaceName } } : World) := opens_nothing _
  have hopened : Opened (fun _ => none) interfaceName { port, interfaceName } false
      ((openListener env port interfaceName).run { listener := { port, interfaceName } }).1
      ((openListener env port interfaceName).run { listener := { port, interfaceName } }).2 :=
    openListener_spec.run ⟨hnew, rfl, rfl⟩
  unfold construct
  revert hopened
  rcases (openListener env port interfaceName).run { listener := { port, interfaceName } } with
    ⟨_ | ⟨fd, address⟩, w⟩
  · rintro ⟨hopens, hlistener, -⟩
    show Opens (serving w.listener) w
    rw [serving_of_none (by rw [hlistener])]
    exact hopens
  · rintro ⟨⟨-, hopens, hlistener, -⟩, -⟩
    show Opens (serving _) _
    rw [serving_of_fd rfl]
    dsimp only
    rw [hlistener]
    exact hopens

theorem sound_serve (env : Environment) (port : UInt16) (interfaceName : Bytes) (turns : ℕ) :
    Sound (serve env port interfaceName turns) ∧
      ((construct env port interfaceName).listener.fd ≠ none →
        (serve env port interfaceName turns).listener.fd = none →
          (serve env port interfaceName turns).requested = true) := by
  have hnew : Sound (construct env port interfaceName) := sound_construct
  unfold serve
  dsimp only
  split
  · rename_i hnone
    exact ⟨hnew, fun hready => absurd hnone hready⟩
  · rename_i hready
    have hloop : Attended (loop env turns (construct env port interfaceName)) :=
      Attended.loop turns ⟨hnew, fun hnone => absurd hnone hready⟩
    exact ⟨hloop.sound, fun _ => hloop.attended⟩

/-- A socket that listens is confined. -/
def PhaseConfined : Phase → Prop
  | .opened socket => socket.listening = true → socket.Confined
  | .unopened | .closed => True

theorem PhaseConfined.step {act : Act} {phase next : Phase} (h : PhaseConfined phase)
    (hstep : life act phase = some next) : PhaseConfined next := by
  cases phase with
  | unopened =>
      cases act <;> cases hstep
      exact nofun
  | closed => cases act <;> cases hstep
  | opened socket =>
      have hunbound : ¬ socket.address ≠ none → socket.listening = true → False :=
        fun hnone hlistening => hnone (h hlistening).1
      cases act with
      | socket => cases hstep
      | reuseAddress => cases hstep; exact h
      | close => cases hstep; trivial
      | bindToDevice interfaceName succeeds =>
          simp only [life] at hstep
          split at hstep <;> cases hstep
          rename_i hnone
          cases succeeds <;> exact fun hlistening => (hunbound hnone hlistening).elim
      | bind address port succeeds =>
          simp only [life] at hstep
          split at hstep <;> cases hstep
          rename_i hnone
          cases succeeds <;> exact fun hlistening => (hunbound hnone hlistening).elim
      | listen backlog succeeds =>
          simp only [life] at hstep
          split at hstep <;> cases hstep
          rename_i hconfined
          exact fun _ => hconfined
      | accept =>
          simp only [life] at hstep
          split at hstep <;> cases hstep
          exact h

theorem confined_of_lives {history : List (Entry Act)} {id : ℕ}
    (h : Lives life .unopened history id (.opened socket)) (hlistening : socket.listening = true) :
    socket.Confined :=
  Machine.run_invariant PhaseConfined (fun _ _ _ hphase hstep => hphase.step hstep)
    (show PhaseConfined .unopened from trivial) h hlistening

/-- Each socket is closed, or it is the one that the listener has. -/
theorem Sound.lives (h : Sound w) {id : ℕ} (hid : id < w.ledger.born) :
    Lives life .unopened w.ledger.history id .closed ∨
      ∃ fd, w.listener.fd = some fd ∧ w.ledger.held fd = some (.ours id) ∧
        Lives life .unopened w.ledger.history id
          (.opened (boundTo w.listener.interfaceName w.listener.address)) := by
  by_cases hheld : ∃ number, w.ledger.held number = some (.ours id)
  · obtain ⟨number, hnumber⟩ := hheld
    obtain ⟨place, phase, hold⟩ := Kept.held h hnumber
    obtain ⟨other, hother, hlives⟩ := Kept.life h hold
    obtain ⟨rfl, socket, hsocket, rfl⟩ := hold
    rw [hnumber] at hother
    cases hother
    cases hfd : w.listener.fd with
    | none =>
        rw [serving_of_none hfd] at hsocket
        cases hsocket
    | some fd =>
        rw [serving_of_fd hfd] at hsocket
        by_cases hplace : place = fd
        · subst hplace
          rw [Function.update_self] at hsocket
          cases hsocket
          exact Or.inr ⟨place, rfl, hnumber, hlives⟩
        · rw [Function.update_of_ne hplace] at hsocket
          cases hsocket
  · exact Or.inl (Kept.released h hid (not_exists.mp hheld))

/-- The destructor closes what is left. -/
theorem Sound.destroy (h : Sound w) : Opens (fun _ => none) (destroy env w) := by
  unfold Sound at h
  unfold Listening.destroy
  cases hfd : w.listener.fd with
  | none => rwa [serving_of_none hfd] at h
  | some fd =>
      rw [serving_of_fd hfd] at h
      have hclosed : Opens _ (env.close fd w) := h.close (Function.update_self _ _ _)
      rwa [Function.update_idem, Function.update_eq_self_iff.mpr rfl] at hclosed

theorem lives_closed (h : Opens (fun _ => none) w) {id : ℕ} (hid : id < w.ledger.born) :
    Lives life .unopened w.ledger.history id .closed := by
  refine (Kept.lives_or_gone h hid).resolve_left ?_
  rintro ⟨place, number, phase, ⟨-, socket, hsocket, -⟩, -⟩
  cases hsocket

/-- Whatever the system calls answer, the other threads do, and the settings and addresses become, after
any number of turns: everything was done to sockets of the listener; all of these but one are closed, each
once, and the one that is not is its `fd`, listens on its address and is confined to its interface, or to
the loopback address if it has none; none has ever listened without being confined; if the listener is down
a new one is asked for; and in the end all sockets are closed. -/
theorem listener_confined (env : Environment) (port : UInt16) (interfaceName : Bytes) (turns : ℕ) :
    let w := serve env port interfaceName turns
    (∀ entry ∈ w.ledger.history, ∃ id < w.ledger.born, entry.hit = some (.ours id)) ∧
    (∀ id < w.ledger.born, Lives life .unopened w.ledger.history id .closed ∨
      ∃ fd, w.listener.fd = some fd ∧ w.ledger.held fd = some (.ours id) ∧
        (boundTo w.listener.interfaceName w.listener.address).Confined ∧
        Lives life .unopened w.ledger.history id
          (.opened (boundTo w.listener.interfaceName w.listener.address))) ∧
    ((construct env port interfaceName).listener.fd ≠ none → w.listener.fd = none → w.requested = true) ∧
    ∀ id < (destroy env w).ledger.born, Lives life .unopened (destroy env w).ledger.history id .closed := by
  intro w
  obtain ⟨hsound, hattended⟩ := sound_serve env port interfaceName turns
  refine ⟨fun entry hentry => Kept.hit hsound hentry, fun id hid => ?_, hattended,
    fun id hid => lives_closed hsound.destroy hid⟩
  rcases hsound.lives hid with hclosed | ⟨fd, hfd, hheld, hlives⟩
  · exact Or.inl hclosed
  · exact Or.inr ⟨fd, hfd, hheld, confined_of_lives hlives rfl, hlives⟩

/-- The new interface is refused as long as the old listener is open. -/
def handover : Environment where
  strangers call := if call = 3 then [(4, true)] else []
  socket call := if call < 10 then some 3 else some 5
  succeeds call := call ≠ 12
  getifaddrs _ := none
  wifiInterface _ := ascii "wlan1"
  requests _ := false
  poll _ := .done false false
  signalRead _ := false

example : (serve handover 8080 (ascii "wlan0") 1).listener = ⟨8080, some 5, kAny, ascii "wlan1"⟩ := by
  decide +kernel

end Listening
end Bridge
end Aa2acp
