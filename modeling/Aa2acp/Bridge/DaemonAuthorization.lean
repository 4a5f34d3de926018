import Aa2acp.Bridge.DaemonHandlers

/-!
# What a request needs in order to change anything

The test of the token is one arm in the chain of `handle_client`, behind arms for `GET`
requests and before the arms for `POST` requests; the test of the default password is
another one, further down.  A request that is not a `POST` or that lacks the token only
reads, in every order with other requests.  On its own, so does one that meets the default
password and is not for one of the two hotspot endpoints.
-/

namespace Aa2acp
namespace Bridge

open Text Management Thread

theorem StartsWith.shorten {short long : String} {request : Bytes} (h : StartsWith long request)
    (hbegins : ascii short <+: ascii long) : StartsWith short request := hbegins.trans h

/-- The first form field of the body that is called `csrf` has the token as its value. -/
def CarriesToken (env : DaemonEnv) (body : Bytes) : Prop :=
  ∃ before part after, formParts body = before ++ part :: after ∧
    (∀ other ∈ before, partName other ≠ ascii "csrf") ∧ partName part = ascii "csrf" ∧
    partValue part = env.csrfToken

theorem carriesToken_iff {env : DaemonEnv} {body : Bytes} :
    CarriesToken env body ↔ formField body (ascii "csrf") = some env.csrfToken :=
  formField_eq_some_iff.symm

section

variable {env : DaemonEnv} {id : ℕ} {request body : Bytes} {s : Daemon}

/-- Without `POST`, or with a wrong token, no arm is reached that changes anything. -/
theorem within_dispatch (h : StartsWith "POST " request → ¬ CarriesToken env body) :
    Within Eq (dispatch env id request body) := by
  rw [carriesToken_iff] at h
  have hnot : ∀ endpoint, ascii "POST " <+: ascii endpoint →
      ¬ (StartsWith "POST " request ∧ formField body (ascii "csrf") ≠ some env.csrfToken) →
      ¬ StartsWith endpoint request := by
    intro endpoint hbegins hallowed hstarts
    have hpost := hstarts.shorten hbegins
    exact hallowed ⟨hpost, h hpost⟩
  unfold dispatch
  split
  · exact within_handlePage env request
  split
  · exact within_pure _
  split
  · exact within_pure _
  rename_i hallowed
  split
  · exact within_handleScanStatus request
  split
  · exact within_handlePrepareStatus request
  rw [if_neg (hnot _ (by decide) hallowed), if_neg (hnot _ (by decide) hallowed)]
  refine (within_readConfig Eq.refl).bind fun config => ?_
  split
  · exact within_pure _
  unfold dispatchSetUp
  rw [if_neg (hnot _ (by decide) hallowed), if_neg (hnot _ (by decide) hallowed),
    if_neg (hnot _ (by decide) hallowed), if_neg (hnot _ (by decide) hallowed),
    if_neg (hnot _ (by decide) hallowed), if_neg (hnot _ (by decide) hallowed)]
  exact within_pure _

/-- A thread that only reads leaves the state as it is. -/
theorem unchanged_of_within {α : Type} {t : Handler α} (h : Within Eq t) (s : Daemon) :
    Guarded (.alone (· = s)) t (fun _ _ => True) s :=
  h.guarded (fun _ => True) (fun _ _ _ _ => trivial)
    (fun _ _ hinv _ hr => ⟨hr ▸ hinv, trivial, trivial⟩) (fun _ _ _ => trivial) trivial

/-- With the default password, only the two hotspot endpoints go further. -/
theorem unchanged_of_needsSetup (hsetup : s.config.NeedsSetup)
    (hstage : ¬ StartsWith "POST /management-hotspot " request)
    (happly : ¬ StartsWith "POST /management-hotspot/apply " request) :
    Guarded (.alone (· = s)) (dispatch env id request body) (fun _ _ => True) s := by
  refine dispatch_cases (fun t hread => unchanged_of_within hread s)
    (fun hstarts => absurd hstarts hstage) (fun hstarts => absurd hstarts happly) ?_
  refine guarded_atomically fun s' hrely _ _ _ => ⟨hrely.symm, trivial, ?_⟩
  cases hrely
  rw [if_pos hsetup]
  exact guarded_pure fun _ _ => trivial

end

/-- If the handling of a request, as far as it got on its own, changed the state of the
daemon in any way, the request is a complete `POST` whose first field `csrf` is the token,
and it is for one of the two hotspot endpoints when the default password was still set. -/
theorem authorized_of_changed {env : DaemonEnv} {id : ℕ} {request : Bytes} {s : Daemon}
    {answers : List Outcome} (hchanged : ((handleClient env id request).run answers s).2 ≠ s) :
    StartsWith "POST " request ∧
      (∃ body, frameHttpRequest request (16 * 1024) (16 * 1024) = .complete body ∧
        CarriesToken env body) ∧
      (s.config.NeedsSetup → StartsWith "POST /management-hotspot " request ∨
        StartsWith "POST /management-hotspot/apply " request) := by
  cases hframing : frameHttpRequest request (16 * 1024) (16 * 1024) with
  | incomplete =>
      simp only [handleClient, hframing] at hchanged
      exact absurd rfl hchanged
  | invalid =>
      simp only [handleClient, hframing] at hchanged
      exact absurd rfl hchanged
  | complete body =>
      simp only [handleClient, hframing] at hchanged
      have hkept : ¬ Guarded (.alone (· = s)) (dispatch env id request body)
          (fun _ _ => True) s := by
        intro hguarded
        have hwhole : Guarded (.alone (· = s))
            (dispatch env id request body >>= fun response => pure (some response))
            (fun _ _ => True) s :=
          Guarded.bind (hguarded.mono fun _ _ _ => guarded_pure fun _ _ => trivial)
        exact hchanged (hwhole.run_alone rfl)
      have htoken : StartsWith "POST " request ∧ CarriesToken env body := by
        by_contra hnot
        rw [not_and] at hnot
        exact hkept (unchanged_of_within (within_dispatch hnot) s)
      refine ⟨htoken.1, ⟨body, rfl, htoken.2⟩, fun hsetup => ?_⟩
      by_contra hnot
      rw [not_or] at hnot
      exact hkept (unchanged_of_needsSetup hsetup hnot.1 hnot.2)

/-- A change of what is shown. -/
theorem authorized_of_changed_display :
    let env : DaemonEnv := ⟨ascii "t", []⟩
    let request :=
      ascii "POST /display HTTP/1.1\r\nContent-Length: 22\r\n\r\n" ++
        ascii "csrf=t&show_unnamed=on"
    let s : Daemon := { config := {} }
    StartsWith "POST " request ∧
      (∃ body, frameHttpRequest request (16 * 1024) (16 * 1024) = .complete body ∧
        CarriesToken env body) ∧
      (s.config.NeedsSetup → StartsWith "POST /management-hotspot " request ∨
        StartsWith "POST /management-hotspot/apply " request) :=
  @authorized_of_changed _ 0 _ { config := {} } [{}, {}] (by decide +kernel)

end Bridge
end Aa2acp
