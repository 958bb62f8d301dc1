import Scaffolding.Proofs.Session.Outcome
import Scaffolding.Remote.Fetch

/-!
# When a document is fetched

A document is fetched exactly if its address can be composed, the request for it can be written, and
the answer is a success that says something. Then one request was sent, and the document is the text
of the answer. What a status says about the credential is the only failure that is about the
credential.
-/

set_option autoImplicit false

namespace Scaffolding.Remote

variable {world : World} {s s' : Session} {source : Source} {text : String}

/-- A status is a success from 200 up to 299. -/
theorem isSuccess_iff {status : Nat} : isSuccess status = true ↔ 200 ≤ status ∧ status < 300 := by
  simp [isSuccess]

/-- A status means no failure exactly if it is a success. -/
theorem statusFailure?_eq_none_iff {url : Url} {status : Nat} {authenticated : Bool} :
    statusFailure? url status authenticated = none ↔ isSuccess status = true := by
  unfold statusFailure?
  split
  · next h => simp [h]
  · next h => split <;> simp [h]

/-- There is a document exactly if the answer is a success that says something. -/
theorem documentOf_eq_ok_iff {url : Url} {authenticated : Bool} {request : Request}
    {delivery : Delivery} :
    documentOf url authenticated request delivery = .ok text ↔
      ∃ status, delivery = .answered status text ∧ isSuccess status = true ∧
        Text.isBlankText text = false := by
  constructor
  · intro h
    unfold documentOf at h
    split at h
    · cases h
    · next status body =>
      split at h
      · cases h
      · next hnone =>
        split at h
        · cases h
        · next hsays =>
          cases h
          exact ⟨status, rfl, statusFailure?_eq_none_iff.mp hnone, by simpa using hsays⟩
  · rintro ⟨status, rfl, hsuccess, hsays⟩
    simp [documentOf, statusFailure?_eq_none_iff.mpr hsuccess, hsays]

/-- The statuses that are about the credential: one of them always, two only if no token was shown. -/
def IsDenial (status : Nat) (authenticated : Bool) : Prop :=
  status = 401 ∨ (status = 403 ∨ status = 404) ∧ authenticated = false

/-- There is a text about the credential exactly for the statuses that deny it. -/
theorem credentialText?_isSome_iff {status : Nat} {authenticated : Bool} :
    (credentialText? status authenticated).isSome ↔ IsDenial status authenticated := by
  unfold credentialText? IsDenial
  cases authenticated <;> split <;> simp_all

/-- A status is a failure for the credential exactly if it is about the credential. -/
theorem statusFailure?_authentication_iff (url : Url) {status : Nat} {authenticated : Bool} :
    (∃ f, statusFailure? url status authenticated = some f ∧ f.kind = .authentication) ↔
      IsDenial status authenticated := by
  unfold statusFailure?
  split
  · next hsuccess =>
    have hnot : ¬ IsDenial status authenticated := by
      rw [isSuccess_iff] at hsuccess
      unfold IsDenial
      omega
    simp [hnot]
  · next hsuccess =>
    rw [← credentialText?_isSome_iff]
    split
    · next text htext => simp [htext, Failure.kind]
    · next hnone => simp [hnone, Failure.kind]

/-- An answer fails for the credential exactly if its status is about the credential. -/
theorem documentOf_authentication_iff {url : Url} {authenticated : Bool} {request : Request}
    {status : Nat} {body : String} :
    (∃ f, documentOf url authenticated request (.answered status body) = .error f ∧
        f.kind = .authentication) ↔ IsDenial status authenticated := by
  rw [← statusFailure?_authentication_iff url]
  unfold documentOf
  dsimp only
  cases statusFailure? url status authenticated with
  | some f => simp
  | none =>
    dsimp only
    split <;> simp [Failure.kind]

/-- Nothing is sent when the address cannot be composed. -/
theorem outcome_fetch_unaddressed {owner repository path branch : String} {f : Failure}
    (hurl : source.documentUrl owner repository path branch = .error f) :
    outcome (fetch source owner repository path branch) world s = (.error f, s) := by
  unfold fetch
  rw [hurl]
  rfl

/-- Nor is a request sent that cannot be written. -/
theorem outcome_fetch_flawed {owner repository path branch reason : String} {url : Url}
    (hurl : source.documentUrl owner repository path branch = .ok url)
    (hflaw : (Request.of source url).flaw? = some reason) :
    outcome (fetch source owner repository path branch) world s =
      (.error (.retrieval url.text reason), s) := by
  unfold fetch
  rw [hurl]
  dsimp only
  unfold fetchUrl
  dsimp only
  rw [hflaw]
  rfl

/-- Once its address is composed and its request can be written, fetching a document is a matter of
the answer. -/
theorem outcome_fetch_sent {owner repository path branch : String} {url : Url}
    (hurl : source.documentUrl owner repository path branch = .ok url)
    (hflaw : (Request.of source url).flaw? = none) :
    outcome (fetch source owner repository path branch) world s =
      (documentOf url source.token.isSome (Request.of source url)
          (world.send s.events (Request.of source url)),
        s.record (.sent (Request.of source url))) := by
  unfold fetch
  rw [hurl]
  dsimp only
  unfold fetchUrl
  dsimp only
  rw [hflaw]
  dsimp only
  rw [outcome_send_bind]
  cases documentOf url source.token.isSome (Request.of source url)
    (world.send s.events (Request.of source url)) <;> rfl

/-- Fetching a document sends one request, or none. -/
theorem outcome_fetch {owner repository path branch : String} {r : Except Failure String}
    (h : outcome (fetch source owner repository path branch) world s = (r, s')) :
    s' = s ∨ ∃ request, s' = s.record (.sent request) := by
  cases hurl : source.documentUrl owner repository path branch with
  | error f =>
    rw [outcome_fetch_unaddressed hurl] at h
    cases h
    exact .inl rfl
  | ok url =>
    cases hflaw : (Request.of source url).flaw? with
    | some reason =>
      rw [outcome_fetch_flawed hurl hflaw] at h
      cases h
      exact .inl rfl
    | none =>
      rw [outcome_fetch_sent hurl hflaw] at h
      cases h
      exact .inr ⟨_, rfl⟩

/-- Fetching fails for the credential exactly if a response arrives that denies it. -/
theorem outcome_fetch_authentication_iff {owner repository path branch : String} :
    (∃ f, (outcome (fetch source owner repository path branch) world s).1 = .error f ∧
        f.kind = .authentication) ↔
      ∃ url status body, source.documentUrl owner repository path branch = .ok url ∧
        (Request.of source url).flaw? = none ∧
        world.send s.events (Request.of source url) = .answered status body ∧
        IsDenial status source.token.isSome := by
  cases hurl : source.documentUrl owner repository path branch with
  | error f =>
    have hkind : f.kind = .retrieval := by
      unfold Source.documentUrl at hurl
      split at hurl <;> cases hurl
      rfl
    simp [outcome_fetch_unaddressed hurl, hkind]
  | ok url =>
    cases hflaw : (Request.of source url).flaw? with
    | some reason => simp [outcome_fetch_flawed hurl hflaw, hflaw, Failure.kind]
    | none =>
      rw [outcome_fetch_sent hurl hflaw]
      cases hanswer : world.send s.events (Request.of source url) with
      | lost => simp [documentOf, hanswer, Failure.kind]
      | answered status body =>
        rw [documentOf_authentication_iff]
        simp [hflaw, hanswer]

/-- What it takes to fetch a document, and what is left of it in the session. -/
theorem outcome_fetch_eq_ok_iff {owner repository path branch : String} :
    outcome (fetch source owner repository path branch) world s = (.ok text, s') ↔
      ∃ url status, source.documentUrl owner repository path branch = .ok url ∧
        (Request.of source url).flaw? = none ∧
        world.send s.events (Request.of source url) = .answered status text ∧
        isSuccess status = true ∧ Text.isBlankText text = false ∧
        s' = s.record (.sent (Request.of source url)) := by
  cases hurl : source.documentUrl owner repository path branch with
  | error f => simp [outcome_fetch_unaddressed hurl]
  | ok url =>
    cases hflaw : (Request.of source url).flaw? with
    | some reason => simp [outcome_fetch_flawed hurl hflaw, hflaw]
    | none =>
      rw [outcome_fetch_sent hurl hflaw, Prod.mk.injEq, documentOf_eq_ok_iff]
      simp only [Except.ok.injEq]
      constructor
      · rintro ⟨⟨status, hanswer, hsuccess, hsays⟩, rfl⟩
        exact ⟨url, status, rfl, hflaw, hanswer, hsuccess, hsays, rfl⟩
      · rintro ⟨url, status, rfl, -, hanswer, hsuccess, hsays, rfl⟩
        exact ⟨⟨status, hanswer, hsuccess, hsays⟩, rfl⟩

end Scaffolding.Remote
