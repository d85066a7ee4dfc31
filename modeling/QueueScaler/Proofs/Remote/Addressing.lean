import QueueScaler.Proofs.Http.Exchange
import QueueScaler.Remote.Deployments
/-!
# Which deployment is scaled

The name of a deployment is written behind the path of all deployments as it is. Almost every
character that may stand in a URI goes over to the request, question marks and percent signs
included, and any other keeps the request from being sent. A hash sign alone is neither: it ends
what is asked for. Names that agree up to their first hash sign address one deployment.

## Main definitions

* `DeploymentAccess.Patches`: scaling a deployment gets as far as sending its request.

## Main results

* `DeploymentAccess.patch_targets`: what the requests for two deployments ask for, and when that is
  the same.
-/

namespace QueueScaler

namespace DeploymentAccess

variable {a : DeploymentAccess} {network network' : Http.Network} {name name' : String}
  {replicas replicas' : ℕ} {request request' : Http.Request}

/-- Scaling a deployment gets as far as sending its request. -/
def Patches (a : DeploymentAccess) (network : Http.Network) (name : String) (replicas : ℕ)
    (request : Http.Request) : Prop :=
  Http.Sent network "PATCH" (a.deploymentUrl name)
    [("content-type", "application/json-patch+json"), ("accept", "application/json")]
    ((replacement replicas).render toString).toUTF8.toList request

/-- **A deployment is scaled only by a request** that has been sent. -/
theorem exists_patches {limit : ℕ} (h : a.scale network limit name replicas = .ok ()) :
    ∃ request, a.Patches network name replicas request := by
  rcases hsend : Http.send network limit "PATCH" (a.deploymentUrl name)
    [("content-type", "application/json-patch+json"), ("accept", "application/json")]
    ((replacement replicas).render toString).toUTF8.toList with fault | response
  · rw [scale, hsend] at h
    cases h
  · exact Http.exists_sent hsend

theorem two_lt_count_deploymentsUrl (a : DeploymentAccess) :
    2 < a.deploymentsUrl.toList.count '/' := by
  have hpath : "/apis/apps/v1/namespaces/".toList.count '/' = 5 := by decide
  simp only [deploymentsUrl, String.toList_append, List.count_append, hpath]
  omega

theorem beforeHash_slash_append : Http.beforeHash ("/" ++ name) = "/" ++ Http.beforeHash name := by
  have hslash : '#' ∉ "/".toList := by decide
  rw [Http.beforeHash, String.toList_append, takeWhile_ne_append_of_notMem hslash,
    String.ofList_append, String.ofList_toList, Http.beforeHash]

/-- **A request for a deployment** asks for its name, up to a hash sign, behind the path of all
deployments. If that path is cut off at a hash sign itself, it is all that is asked for. -/
theorem Patches.target_eq (h : a.Patches network name replicas request) :
    ∃ deployments, Http.Destination.ofUrl a.deploymentsUrl = .ok deployments ∧
      request.target = if '#' ∈ a.deploymentsUrl.toList then deployments.target
        else deployments.target ++ "/" ++ Http.beforeHash name := by
  obtain ⟨d, hurl, -, hbuild⟩ := h
  rw [deploymentUrl, String.append_assoc] at hurl
  obtain ⟨deployments, hdeployments, -, htarget⟩ :=
    Http.Destination.ofUrl_append hurl a.two_lt_count_deploymentsUrl
  refine ⟨deployments, hdeployments, ?_⟩
  rw [Http.target_of_build? hbuild, htarget, beforeHash_slash_append, String.append_assoc]

/-- A deployment is scaled if all requests are answered with success. -/
theorem Patches.scale_eq_ok {limit : ℕ} {body : List UInt8}
    (h : a.Patches (fun _ ↦ some fun _ ↦ .answered ⟨200, body⟩) name replicas request) :
    a.scale (fun _ ↦ some fun _ ↦ .answered ⟨200, body⟩) limit name replicas = .ok () := by
  obtain ⟨address, receive, -, hreceive, hsend⟩ := h.send_eq
  obtain rfl := Option.some.inj hreceive
  rw [scale, hsend]
  rfl

/-- A request asks for the path of all deployments, a slash and the name exactly, unless something
of that is cut off. -/
theorem Patches.target_eq_iff {deployments : Http.Destination}
    (h : a.Patches network name replicas request)
    (hurl : Http.Destination.ofUrl a.deploymentsUrl = .ok deployments) :
    request.target = deployments.target ++ "/" ++ name ↔
      '#' ∉ a.deploymentsUrl.toList ∧ '#' ∉ name.toList := by
  obtain ⟨deployments', hurl', htarget⟩ := h.target_eq
  obtain rfl : deployments = deployments' := Except.ok.inj (hurl.symm.trans hurl')
  rw [htarget]
  split_ifs with hhash
  · refine iff_of_false (fun heq ↦ ?_) fun hnone ↦ hnone.1 hhash
    rw [String.append_assoc, eq_comm, String.append_eq_left_iff, String.append_eq_empty_iff] at heq
    exact absurd heq.1 (by decide)
  · rw [String.append_right_inj, Http.beforeHash_eq_self_iff]
    exact (and_iff_right hhash).symm

/-- **What the requests for two deployments ask for.** Let scaling get as far as sending the request
for each of two deployments, whatever the interface and the namespace. Each request asks for the
path of all deployments, a slash and the name exactly, unless there is a hash sign in the name or
before it. Both ask for the same only if the names agree up to their first hash signs, or if there
is one before them. -/
theorem patch_targets (h : a.Patches network name replicas request)
    (h' : a.Patches network' name' replicas' request') :
    ∃ deployments, Http.Destination.ofUrl a.deploymentsUrl = .ok deployments ∧
      (request.target = deployments.target ++ "/" ++ name ↔
        '#' ∉ a.deploymentsUrl.toList ∧ '#' ∉ name.toList) ∧
      (request'.target = deployments.target ++ "/" ++ name' ↔
        '#' ∉ a.deploymentsUrl.toList ∧ '#' ∉ name'.toList) ∧
      (request.target = request'.target ↔
        '#' ∈ a.deploymentsUrl.toList ∨ Http.beforeHash name = Http.beforeHash name') := by
  obtain ⟨deployments, hurl, htarget⟩ := h.target_eq
  obtain ⟨deployments', hurl', htarget'⟩ := h'.target_eq
  obtain rfl : deployments = deployments' := Except.ok.inj (hurl.symm.trans hurl')
  refine ⟨deployments, hurl, h.target_eq_iff hurl, h'.target_eq_iff hurl, ?_⟩
  rw [htarget, htarget']
  split_ifs with hhash
  · exact iff_of_true rfl (.inl hhash)
  · rw [String.append_right_inj, or_iff_right hhash]

/-! ### A local interface -/

/-- A local interface. -/
def localAccess : DeploymentAccess := ⟨"http://127.0.0.1:8001/", "shop"⟩

/-- A network that answers every request with success. -/
def willing : Http.Network := fun _ ↦ some fun _ ↦ .answered ⟨200, []⟩

/-- The request at the local interface that asks for a deployment. -/
def localRequest (deployment : String) (replicas : ℕ) : Http.Request where
  method := "PATCH"
  target := "/apis/apps/v1/namespaces/shop/deployments/" ++ deployment
  headers := [("host", "127.0.0.1:8001"), ("user-agent", Http.userAgent),
    ("content-type", "application/json-patch+json"), ("accept", "application/json")]
  body := ((replacement replicas).render toString).toUTF8.toList

theorem localAccess_patches {deployment : String}
    (hurl : Http.Destination.ofUrl (localAccess.deploymentUrl name) = .ok
      ⟨⟨"127.0.0.1", 8001⟩, "127.0.0.1:8001", (localRequest deployment replicas).target⟩)
    (htarget : Http.isRequestTarget (localRequest deployment replicas).target = true) :
    localAccess.Patches willing name replicas (localRequest deployment replicas) := by
  refine ⟨_, hurl, rfl, ?_⟩
  rw [Http.Request.build?, if_pos ⟨htarget, by decide⟩]
  rfl

/-- Two deployments, one with a question mark in its name, are scaled apart. -/
theorem localAccess_apart :
    localAccess.Patches willing "web" 4 (localRequest "web" 4) ∧
      localAccess.Patches willing "web?" 2 (localRequest "web?" 2) ∧
      (localRequest "web" 4).target ≠ (localRequest "web?" 2).target := by
  have hweb : localAccess.Patches willing "web" 4 (localRequest "web" 4) :=
    localAccess_patches (by decide) (by decide)
  have hmark : localAccess.Patches willing "web?" 2 (localRequest "web?" 2) :=
    localAccess_patches (by decide) (by decide)
  obtain ⟨-, -, -, -, hsame⟩ := patch_targets hweb hmark
  refine ⟨hweb, hmark, fun heq ↦ ?_⟩
  rcases hsame.mp heq with hhash | hcut
  · exact absurd hhash (by decide)
  · exact absurd hcut (by decide)

/-- Two deployments whose names agree up to a hash sign are scaled as one. Both calls succeed. -/
theorem localAccess_collision :
    "web#blue" ≠ "web#green" ∧
      ∀ name ∈ ["web#blue", "web#green"], Text.isAllBlank name = false ∧ Text.trim name = name ∧
        localAccess.Patches willing name 4 (localRequest "web" 4) ∧
        localAccess.scale willing 1000 name 4 = .ok () := by
  have hblue : localAccess.Patches willing "web#blue" 4 (localRequest "web" 4) :=
    localAccess_patches (by decide) (by decide)
  have hgreen : localAccess.Patches willing "web#green" 4 (localRequest "web" 4) :=
    localAccess_patches (by decide) (by decide)
  have hnames : ∀ name ∈ ["web#blue", "web#green"],
      Text.isAllBlank name = false ∧ Text.trim name = name := by decide
  refine ⟨by decide, fun name hname ↦ ?_⟩
  have hpatches : localAccess.Patches willing name 4 (localRequest "web" 4) := by
    obtain rfl | rfl : name = "web#blue" ∨ name = "web#green" := by simpa using hname
    · exact hblue
    · exact hgreen
  exact ⟨(hnames name hname).1, (hnames name hname).2, hpatches, hpatches.scale_eq_ok⟩

end DeploymentAccess

end QueueScaler
