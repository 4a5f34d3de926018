import Aa2acp.Iap2.LinkSteps

/-!
# The application behind the link

Nothing but `control_data_` touches the application, so what every call of `control_data_`
keeps, whatever the link answers to the messages that it sends, the link keeps (`app_receive`).
-/

namespace Aa2acp
namespace Iap2

open Interaction

variable {σ : Type} (env : Env σ)

/-- Every call of `control_data_` keeps a property of the application. -/
def Keeps (I : σ → Prop) : Prop :=
  ∀ callback, env.controlData = some callback →
    ∀ payload app app', I app → Outcome (callback payload app) app' → I app'

variable {env}

/-! ## What only sends -/

@[simp] theorem app_transmit (frame : Bytes) (w : World σ) : (w.transmit env frame).2.app = w.app := rfl

@[simp] theorem app_setBuffer (buffer : Bytes) (w : World σ) : (w.setBuffer buffer).app = w.app := rfl

@[simp] theorem app_writePacket (payload : Bytes) (sequence control sessionId : UInt8) (w : World σ) :
    (writePacket env payload sequence control sessionId w).app = w.app := by
  unfold writePacket
  dsimp only
  split
  · rfl
  · split <;> rfl

@[simp] theorem app_sendMarker (w : World σ) : (sendMarker env w).2.app = w.app := by
  unfold sendMarker
  dsimp only
  split <;> rfl

@[simp] theorem app_sendSyn (now : TimePoint) (acknowledgePeer : Bool) (w : World σ) :
    (sendSyn env now acknowledgePeer w).app = w.app := by
  unfold sendSyn
  dsimp only
  split
  · rfl
  · rw [World.update_app, app_writePacket, World.update_app]

@[simp] theorem app_sendAck (w : World σ) : (sendAck env w).app = w.app :=
  app_writePacket _ _ _ _ w

@[simp] theorem app_queueControl (payload : Bytes) (w : World σ) :
    (queueControl env payload w).2.app = w.app := by
  unfold queueControl
  dsimp only
  split
  · rfl
  · split <;> rfl

@[simp] theorem app_sendControl (payload : Bytes) (w : World σ) :
    (sendControl env payload w).2.app = w.app := by
  unfold sendControl
  dsimp only
  split
  · rfl
  · exact app_queueControl payload w

@[simp] theorem app_retransmit (now : TimePoint) (visited messages : List PendingMessage) (w : World σ) :
    (retransmit env now visited messages w).app = w.app := by
  induction messages generalizing visited w with
  | nil => rfl
  | cons message messages ih =>
      unfold retransmit
      dsimp only
      split
      · exact ih _ w
      split
      · rfl
      · split
        · exact ih _ _
        · rfl

@[simp] theorem app_tickMarker (now : TimePoint) (w : World σ) : (tickMarker env now w).2.app = w.app := by
  have hmarker : (sendMarker env w).2.app = w.app := app_sendMarker w
  unfold tickMarker
  split
  · split
    · next heq => rwa [heq] at hmarker
    · next heq => rwa [heq] at hmarker
  · rfl

@[simp] theorem app_tick (now : TimePoint) (w : World σ) : (tick env now w).app = w.app := by
  have hmarker : (tickMarker env now w).2.app = w.app := app_tickMarker now w
  unfold tick
  split
  · rfl
  · split
    · next heq => rwa [heq] at hmarker
    · next heq =>
        rw [heq] at hmarker
        rw [app_retransmit]
        split
        · rw [app_sendSyn, hmarker]
        · exact hmarker

@[simp] theorem app_start (now : TimePoint) (w : World σ) : (start env now w).app = w.app := by
  have hmarker : (sendMarker env w).2.app = w.app := app_sendMarker w
  unfold start
  split
  · rfl
  · split
    · next heq => rwa [heq] at hmarker
    · next heq =>
        rw [heq] at hmarker
        rw [app_sendSyn, World.update_app, hmarker]

/-! ## What also calls the application -/

section

variable {I : σ → Prop} (hkeeps : Keeps env I) {w : World σ} (now : TimePoint)

include hkeeps

theorem app_deliver {callback : Bytes → σ → Sends σ} (hcallback : env.controlData = some callback)
    (payload : Bytes) (h : I w.app) : I (deliver env callback payload w).app :=
  hkeeps callback hcallback payload w.app _ h (outcome_run (sendControl env) _ _)

theorem app_handleData (header : Header) (payload : Bytes) (h : I w.app) :
    I (handleData env header payload w).app := by
  unfold handleData
  dsimp only
  split
  · exact h
  split
  · rwa [app_sendAck]
  split
  · rwa [app_sendAck]
  split
  · rwa [app_sendAck]
  cases hcallback : env.controlData with
  | none =>
      dsimp only
      rwa [app_sendAck]
  | some callback =>
      dsimp only
      split
      · rw [app_sendAck]
        exact app_deliver hkeeps hcallback payload h
      · rwa [app_sendAck]

theorem app_handlePacket (header : Header) (payload : Bytes) (h : I w.app) :
    I (handlePacket env header payload now w).app := by
  unfold handlePacket
  dsimp only
  split
  · exact h
  split
  · split
    · rwa [app_sendAck]
    · split
      · rwa [app_sendSyn]
      · exact h
  split
  · split <;> exact h
  split
  · exact app_handleData hkeeps header payload h
  · exact h

theorem app_processOnce (h : I w.app) : I (processOnce env now w).2.app := by
  unfold processOnce
  dsimp only
  split
  · exact h
  split
  · exact h
  unfold processFrame
  dsimp only
  split
  · exact h
  split
  · exact h
  split
  · exact h
  split
  · exact h
  split
  · exact h
  · exact app_handlePacket hkeeps now _ _ h

theorem app_processLoop (fuel : ℕ) (h : I w.app) : I (processLoop env now fuel w).app := by
  induction fuel generalizing w with
  | zero => exact h
  | succ fuel ih =>
      have honce := app_processOnce hkeeps now h
      unfold processLoop
      split
      · exact h
      split
      · next heq =>
          rw [heq] at honce
          exact ih honce
      · next heq => rwa [heq] at honce

theorem app_receive (bytes : Bytes) (h : I w.app) : I (receive env bytes now w).app := by
  unfold receive
  split
  · exact h
  unfold scanBuffer
  dsimp only
  split
  · split
    · exact h
    · refine app_processLoop hkeeps now _ ?_
      rwa [app_sendSyn]
  · exact app_processLoop hkeeps now _ h

end

/-- A call of the owner of the application: what it sends goes over the link. -/
def onLink (env : Env σ) (computation : σ → Sends σ) (w : World σ) : World σ :=
  let (app, w) := (computation w.app).run (sendControl env) w
  { w with app := app }

theorem app_onLink {I : σ → Prop} {computation : σ → Sends σ} {w : World σ}
    (h : ∀ app', Outcome (computation w.app) app' → I app') : I (onLink env computation w).app :=
  h _ (outcome_run (sendControl env) _ w)

end Iap2
end Aa2acp
