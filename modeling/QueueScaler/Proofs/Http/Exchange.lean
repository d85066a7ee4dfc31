import QueueScaler.Proofs.Http.Uri
/-!
# Where exchanges go

An exchange makes at most one connection, and the URL alone decides to which address. A URL names an
address if it has the scheme `http`, an authority, and a path and query that are fit for a URI; the
address is the host of the authority and the port that is taken from what is written behind the
host. Any other URL is refused, whatever the network does.

## Main definitions

* `Http.Names`: a URL names an address.
* `Http.Contacts`, `Http.Refused`: what a URL makes of an exchange.
* `Http.Sent`: an exchange gets as far as sending its request.

## Main results

* `Http.contacts_named`: an exchange goes to the address that its URL names.
* `Http.Destination.ofUrl_append`: where a URL leads behind which more is written.
* `Http.Sent.send_eq`: what comes of a request that is sent.
* `Http.exists_sent`: no exchange succeeds without one.
-/

namespace QueueScaler.Http

variable {url : String} {network network' : Network} {limit : ℕ} {method : String}
  {headers : List (String × String)} {body : List UInt8} {d : Destination} {fault : Fault}
  {request : Request}

/-! ### What a URL makes of an exchange -/

/-- A URL makes an exchange contact an address: the exchange fails if no connection can be made to
it, and does not depend on what happens at others. -/
structure Contacts (url : String) (address : Address) : Prop where
  /-- Without a connection there is no exchange. -/
  unreachable : ∀ (network : Network) limit method headers body, network address = none →
    send network limit method url headers body = .error (.unreachable address)
  /-- No other address is contacted. -/
  congr : ∀ (network network' : Network) limit method headers body,
    network address = network' address →
      send network limit method url headers body = send network' limit method url headers body

/-- A URL makes an exchange fail before any connection is made. -/
def Refused (url : String) : Prop :=
  ∃ fault, (fault = .invalidUrl url ∨ fault = .unsupportedUrl url) ∧
    ∀ network limit method headers body, send network limit method url headers body = .error fault

theorem contacts_of_ofUrl (h : Destination.ofUrl url = .ok d) : Contacts url d.address where
  unreachable network limit method headers body hnone := by
    simp only [send, h, hnone]
  congr network network' limit method headers body heq := by
    simp only [send, h, heq]

theorem refused_of_ofUrl (h : Destination.ofUrl url = .error fault) : Refused url := by
  have hsend (network limit method headers body) :
      send network limit method url headers body = .error fault := by
    simp only [send, h]
  refine ⟨fault, ?_, hsend⟩
  unfold Destination.ofUrl at h
  split at h
  · exact .inl (Except.error.inj h).symm
  · split at h
    · cases h
    · exact .inr (Except.error.inj h).symm
  · exact .inr (Except.error.inj h).symm

/-- An exchange cannot be refused and be made as well. -/
theorem Contacts.not_refused {address : Address} (h : Contacts url address) : ¬ Refused url := by
  rintro ⟨fault, hfault, hrefused⟩
  have hnone := h.unreachable (fun _ ↦ none) 0 "" [] [] rfl
  rw [hrefused] at hnone
  obtain rfl := Except.error.inj hnone
  rcases hfault with hfault | hfault <;> cases hfault

theorem Contacts.unique {first second : Address} (h : Contacts url first)
    (h' : Contacts url second) : first = second := by
  have hfirst := h.unreachable (fun _ ↦ none) 0 "" [] [] rfl
  rw [h'.unreachable (fun _ ↦ none) 0 "" [] [] rfl] at hfirst
  exact (Fault.unreachable.inj (Except.error.inj hfirst)).symm

theorem contacts_iff {address : Address} :
    Contacts url address ↔ ∃ d, Destination.ofUrl url = .ok d ∧ d.address = address := by
  constructor
  · intro h
    rcases hurl : Destination.ofUrl url with fault | d
    · exact absurd (refused_of_ofUrl hurl) h.not_refused
    · exact ⟨d, rfl, (contacts_of_ofUrl hurl).unique h⟩
  · rintro ⟨d, hurl, rfl⟩
    exact contacts_of_ofUrl hurl

/-! ### The address that a URL names -/

theorem canonicalScheme_eq_http_iff {scheme : List Char} :
    Uri.canonicalScheme scheme = "http".toList ↔ scheme.map Char.toLower = "http".toList := by
  simp only [Uri.canonicalScheme]
  split_ifs with hlower
  · exact Iff.rfl
  · refine iff_of_false (fun hscheme ↦ hlower ?_) fun hscheme ↦ hlower (.inl hscheme)
    rw [hscheme]
    exact .inl rfl

/-- **A URL that leads somewhere** is an absolute one with the scheme `http`. -/
theorem Destination.ofUrl_eq_ok_iff : ofUrl url = .ok d ↔
    ∃ scheme authority tail target, Uri.Absolute url scheme authority tail ∧
      scheme.map Char.toLower = "http".toList ∧ Uri.target? tail = some target ∧
      d = ⟨⟨String.ofList (Authority.host authority),
        (Authority.port? authority).getD defaultPort⟩, String.ofList authority,
        String.ofList (Uri.orRoot target)⟩ := by
  constructor
  · intro h
    unfold ofUrl at h
    split at h
    · cases h
    · rename_i scheme' authority asked hparse
      obtain ⟨scheme, tail, habsolute, rfl, htarget⟩ := Uri.parse?_eq_absolute_iff.mp hparse
      obtain ⟨target, hasked, rfl⟩ := Option.map_eq_some_iff.mp htarget
      split_ifs at h with hscheme
      exact ⟨scheme, authority, tail, target, habsolute, canonicalScheme_eq_http_iff.mp hscheme,
        hasked, (Except.ok.inj h).symm⟩
    · cases h
  · rintro ⟨scheme, authority, tail, target, habsolute, hscheme, htarget, rfl⟩
    have hparse := Uri.parse?_eq_absolute_iff.mpr
      ⟨scheme, tail, habsolute, rfl, Option.map_eq_some_iff.mpr ⟨target, htarget, rfl⟩⟩
    simp only [ofUrl, hparse, if_pos (canonicalScheme_eq_http_iff.mpr hscheme)]

/-- A URL names an address: it has the scheme `http`, and an authority with the host and, behind
that, the port of the address; and what follows is fit for a path and a query. -/
def Names (url : String) (address : Address) : Prop :=
  ∃ scheme user host rest tail, Uri.Absolute url scheme (user ++ host ++ rest) tail ∧
    scheme.map Char.toLower = "http".toList ∧ (Uri.target? tail).isSome = true ∧
    Authority.Parts (user ++ host ++ rest) user host rest ∧ address.host = String.ofList host ∧
    Authority.PortOf rest address.port

theorem names_iff {address : Address} :
    Names url address ↔ ∃ d, Destination.ofUrl url = .ok d ∧ d.address = address := by
  constructor
  · rintro ⟨scheme, user, host, rest, tail, habsolute, hscheme, htarget, hparts, hhost, hport⟩
    obtain ⟨target, htarget⟩ := Option.isSome_iff_exists.mp htarget
    refine ⟨_, Destination.ofUrl_eq_ok_iff.mpr
      ⟨scheme, _, tail, target, habsolute, hscheme, htarget, rfl⟩, ?_⟩
    rw [hparts.host_eq, hparts.port?_eq, Authority.portOf_iff.mp hport, ← hhost]
  · rintro ⟨d, hurl, rfl⟩
    obtain ⟨scheme, authority, tail, target, habsolute, hscheme, htarget, rfl⟩ :=
      Destination.ofUrl_eq_ok_iff.mp hurl
    obtain ⟨user, host, rest, hparts⟩ := Authority.exists_parts habsolute.isValid
    obtain rfl := hparts.text
    exact ⟨scheme, user, host, rest, tail, habsolute, hscheme, Option.isSome_iff_exists.mpr
      ⟨target, htarget⟩, hparts, by rw [hparts.host_eq],
      Authority.portOf_iff.mpr (by rw [hparts.port?_eq])⟩

/-- **An exchange goes to the address that its URL names,** and to no other. A URL that names none
is refused before any connection is made, and such a URL only. The port is the one written behind
the host; a text there that is no port, in that it is empty, has another character than digits or
is too large, counts for none, and port 80 is contacted. -/
theorem contacts_named (url : String) :
    (∀ address, Contacts url address ↔ Names url address) ∧
      (Refused url ↔ ∀ address, ¬ Names url address) := by
  have hcontacts (address : Address) : Contacts url address ↔ Names url address :=
    contacts_iff.trans names_iff.symm
  refine ⟨hcontacts, fun hrefused address hnames ↦ ?_, fun hnone ↦ ?_⟩
  · exact ((hcontacts address).mpr hnames).not_refused hrefused
  · rcases hurl : Destination.ofUrl url with fault | d
    · exact refused_of_ofUrl hurl
    · exact absurd (names_iff.mpr ⟨d, hurl, rfl⟩) (hnone d.address)

/-- The number behind the host is too large for a port. The URL is not refused, and port 80 is
contacted in its place. -/
theorem contacts_mistyped :
    Uri.Absolute "http://127.0.0.1:99999/" "http".toList "127.0.0.1:99999".toList ['/'] ∧
      Authority.Parts "127.0.0.1:99999".toList [] "127.0.0.1".toList (':' :: "99999".toList) ∧
      (¬ ∃ port < 65536, Digits.Writes "99999".toList port) ∧
      Contacts "http://127.0.0.1:99999/" ⟨"127.0.0.1", 80⟩ ∧
      ¬ Refused "http://127.0.0.1:99999/" := by
  have hport : ¬ ∃ port < 65536, Digits.Writes "99999".toList port := by
    rintro ⟨port, hlt, hwrites⟩
    have hcount := Digits.count?_eq_some_iff.mpr ⟨hwrites, hlt⟩
    have hnone : Digits.count? 65536 "99999".toList = none := by decide
    exact absurd (hnone.symm.trans hcount) nofun
  have hcontacts : Contacts "http://127.0.0.1:99999/" ⟨"127.0.0.1", 80⟩ :=
    contacts_of_ofUrl (d := ⟨⟨"127.0.0.1", 80⟩, "127.0.0.1:99999", "/"⟩) (by decide)
  have hboundary : ∀ c ∈ ['/'].head?, Uri.inAuthority c = false := by
    intro c hc
    obtain rfl : '/' = c := Option.some.inj hc
    decide
  have habsolute : Uri.Absolute "http://127.0.0.1:99999/" "http".toList "127.0.0.1:99999".toList
      ['/'] :=
    ⟨by decide, by decide, List.all_eq_true.mp (by decide), by decide, by decide, by decide,
      hboundary⟩
  have hparts : Authority.Parts "127.0.0.1:99999".toList [] "127.0.0.1".toList
      (':' :: "99999".toList) :=
    ⟨by decide, .inl rfl, by decide,
      .inr ⟨by decide, by decide, fun c hc ↦ (Option.some.inj hc).symm⟩⟩
  exact ⟨habsolute, hparts, hport, hcontacts, hcontacts.not_refused⟩

/-! ### URLs behind which more is written -/

/-- A text up to its first hash sign. -/
def beforeHash (s : String) : String := String.ofList (s.toList.takeWhile (· ≠ '#'))

theorem beforeHash_eq_self_iff {s : String} : beforeHash s = s ↔ '#' ∉ s.toList := by
  constructor
  · intro h hmem
    rw [← h, beforeHash, String.toList_ofList] at hmem
    exact absurd (List.mem_takeWhile_imp hmem) (by decide)
  · intro h
    rw [beforeHash, takeWhile_ne_of_notMem h, String.ofList_toList]

/-- **A URL behind which more is written** leads to the same address. There more is asked for, up
to a hash sign; if the URL has a hash sign itself, the same is asked for. -/
theorem Destination.ofUrl_append {more : String} (h : ofUrl (url ++ more) = .ok d)
    (hslashes : 2 < url.toList.count '/') :
    ∃ root, ofUrl url = .ok root ∧ d.address = root.address ∧
      d.target = if '#' ∈ url.toList then root.target else root.target ++ beforeHash more := by
  obtain ⟨scheme, authority, tail, target, habsolute, hscheme, htarget, rfl⟩ :=
    ofUrl_eq_ok_iff.mp h
  obtain ⟨path, hpath, rfl, hne, hhash⟩ := habsolute.of_append hslashes
  obtain ⟨hasked, rfl⟩ := Uri.target?_append htarget
  refine ⟨_, ofUrl_eq_ok_iff.mpr ⟨scheme, authority, path, _, hpath, hscheme, hasked, rfl⟩, rfl, ?_⟩
  by_cases hmem : '#' ∈ path
  · rw [if_pos hmem, if_pos (hhash.mp hmem)]
  · rw [if_neg hmem, if_neg (mt hhash.mpr hmem), takeWhile_ne_of_notMem hmem,
      Uri.orRoot_of_ne_nil hne, Uri.orRoot_of_ne_nil (List.append_ne_nil_of_left_ne_nil hne _),
      String.ofList_append, beforeHash]

/-! ### Requests on their way -/

/-- An exchange gets as far as sending its request: the URL leads somewhere, a connection is made,
and the request can be written down. -/
def Sent (network : Network) (method url : String) (headers : List (String × String))
    (body : List UInt8) (request : Request) : Prop :=
  ∃ d, Destination.ofUrl url = .ok d ∧ (network d.address).isSome = true ∧
    Request.build? d method headers body = some request

/-- What is sent asks for what the URL leads to. -/
theorem target_of_build? (h : Request.build? d method headers body = some request) :
    request.target = d.target := by
  rw [Request.build?, Option.ite_none_right_eq_some] at h
  obtain rfl := Option.some.inj h.2
  rfl

/-- **Once the request is sent,** what comes of it is what comes of the exchange. -/
theorem Sent.send_eq (h : Sent network method url headers body request) :
    ∃ address receive, Contacts url address ∧ network address = some receive ∧
      ∀ limit, send network limit method url headers body = (receive request).result url limit := by
  obtain ⟨d, hurl, hnetwork, hbuild⟩ := h
  obtain ⟨receive, hreceive⟩ := Option.isSome_iff_exists.mp hnetwork
  refine ⟨d.address, receive, contacts_of_ofUrl hurl, hreceive, fun limit ↦ ?_⟩
  simp only [send, hurl, hreceive, hbuild]

/-- **An exchange that succeeds** has sent its request. -/
theorem exists_sent {response : Response}
    (h : send network limit method url headers body = .ok response) :
    ∃ request, Sent network method url headers body request := by
  unfold send at h
  split at h
  · cases h
  · rename_i d hurl
    split at h
    · cases h
    · rename_i receive hreceive
      split at h
      · cases h
      · rename_i request hbuild
        exact ⟨request, d, hurl, by rw [hreceive, Option.isSome_some], hbuild⟩

end QueueScaler.Http
