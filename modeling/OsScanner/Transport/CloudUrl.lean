import Mathlib
import OsScanner.Security.UrlPaths

/-!
# The URL of a request

`CloudApiConfig` and `CloudClient._url` of `app/transport/client.py`. The URL of a request is the
configured base URL with an API path behind it, and is read back as exactly this.
-/

namespace OsScanner.Transport

open Lib Lib.Check Lib.Percent Lib.Url Security

/-! ## The base URL -/

/-- The checks of a network location that `urlsplit` makes, and `text.lower()`. -/
structure UrlLibrary where
  netlocAccepted : List Char → Bool
  lower : List Char → List Char

/-- `TransportConfigurationError`, or a `ValueError` of `urlsplit`. -/
inductive ConfigurationError where
  | configuration (message : String)
  | valueError
  deriving DecidableEq, Repr

/-- The text before the last `c`, if there is one, and the text behind it. -/
def cutLast (c : Char) (text : List Char) : Option (List Char) × List Char :=
  let (after, before) := cut c text.reverse
  (if c ∈ text then some before.reverse else none, after.reverse)

/-- `_userinfo`: the name and the password. -/
def userinfo (netloc : List Char) : List Char × List Char :=
  match (cutLast '@' netloc).1 with
  | some info => cut ':' info
  | none => ([], [])

/-- `_hostinfo`: the name of the host and the port. -/
def hostinfo (netloc : List Char) : List Char × List Char :=
  let info := (cutLast '@' netloc).2
  if '[' ∈ info then
    let (host, port) := cut ']' (cut '[' info).2
    (host, (cut ':' port).2)
  else cut ':' info

/-- `parsed.hostname`, which is empty where Python returns `None`. -/
def hostname (lib : UrlLibrary) (netloc : List Char) : List Char :=
  let host := (hostinfo netloc).1
  if '%' ∈ host then lib.lower (cut '%' host).1 ++ '%' :: (cut '%' host).2 else
    if host = [] then [] else lib.lower host

/-- `parsed.port` does not raise. -/
def isPortAccepted (netloc : List Char) : Bool :=
  let port := (hostinfo netloc).2
  decide (port = [] ∨ (port.all (fun c => decide ('0' ≤ c ∧ c ≤ '9')) = true ∧ port.length ≤ 4300 ∧
    port.foldl (fun n c => 10 * n + (c.toNat - 48)) 0 ≤ 65535))

/-- Hosts on which the base URL may use HTTP. -/
def loopbackHosts : List String := ["localhost", "127.0.0.1", "::1"]

def raisePath : PathError → String → ConfigurationError
  | .apiPath _ _, message => .configuration message
  | .valueError, _ => .valueError

/-- The checks of `CloudApiConfig` on its base URL. -/
def validateBaseUrl (lib : UrlLibrary) (baseUrl : List Char) (allowInsecureLoopbackHttp : Bool) :
    Except ConfigurationError Unit := do
  let parsed ← (urlsplit lib.netlocAccepted baseUrl).elim (.error .valueError) .ok
  let scheme := parsed.scheme.map Char.toLower
  raiseIf (scheme ≠ "https".toList ∧ ¬ (scheme = "http".toList ∧ allowInsecureLoopbackHttp = true ∧
      String.ofList (hostname lib parsed.netloc) ∈ loopbackHosts))
    (.configuration "cloud API base URL must use HTTPS unless loopback HTTP is explicitly enabled")
  raiseIf (hostname lib parsed.netloc = [] ∨ (userinfo parsed.netloc).1 ≠ [] ∨
      (userinfo parsed.netloc).2 ≠ [])
    (.configuration "cloud API base URL is invalid")
  raiseIf (isPortAccepted parsed.netloc = false)
    (.configuration "cloud API base URL has an invalid port")
  raiseIf (parsed.query ≠ [] ∨ parsed.fragment ≠ [])
    (.configuration "cloud API base URL cannot include query or fragment")
  raiseIf ('?' ∈ baseUrl ∨ '#' ∈ baseUrl)
    (.configuration "cloud API base URL cannot include query or fragment")
  (validateBaseUrlPath parsed.path).mapError fun e =>
    raisePath e "cloud API base URL contains an invalid path"

/-- A client whose configuration was accepted, with the parts of its base URL. -/
structure CloudClient (lib : UrlLibrary) where
  baseUrl : List Char
  allowInsecureLoopbackHttp : Bool := false
  parsedBase : SplitResult
  accepted : validateBaseUrl lib baseUrl allowInsecureLoopbackHttp = .ok ()
  parsed : urlsplit lib.netlocAccepted (rstripSlashes baseUrl) = some parsedBase

namespace CloudClient

variable {lib : UrlLibrary} (client : CloudClient lib)

/-- The path of the base URL, to which paths are appended. -/
def basePath : List Char := rstripSlashes client.parsedBase.path

/-- `_url(endpoint)` -/
def url (endpoint : String) : Except ConfigurationError String := do
  let _ ← (validateApiPath lib.netlocAccepted endpoint [] 2048 true).mapError fun e =>
    raisePath e "API endpoint is not a safe absolute path"
  let parsed ← (urlsplit lib.netlocAccepted endpoint.toList).elim (.error .valueError) .ok
  .ok (String.ofList (urlunsplit
    ⟨client.parsedBase.scheme, client.parsedBase.netloc, client.basePath ++ parsed.path, [], []⟩))

/-! ## What the configuration says of the base URL -/

/-- The parts of an accepted base URL. -/
structure IsBase (lib : UrlLibrary) (base : SplitResult) : Prop where
  scheme : IsScheme base.scheme
  netloc : IsNetloc lib.netlocAccepted base.netloc
  path : IsPath base.path

theorem hostname_nil : hostname lib [] = [] := rfl

theorem isBase_parsedBase : IsBase lib client.parsedBase ∧ IsSafeThroughout client.basePath := by
  have haccepted := client.accepted
  simp only [validateBaseUrl, bind_eq_ok, raiseIf_eq_ok, exists_const, elim_eq_ok, mapError_eq_ok]
    at haccepted
  obtain ⟨parts, hsplit, hscheme, hhost, -, -, hplain, hpath⟩ := haccepted
  have hnetloc : parts.netloc ≠ [] := by
    intro hnil
    refine hhost (Or.inl ?_)
    rw [hnil]
    exact hostname_nil
  obtain ⟨hlower, hisNetloc, -⟩ := isSplit_of_urlsplit hsplit hnetloc
  have hisScheme : IsScheme parts.scheme := by
    rw [hlower] at hscheme
    have hcases : parts.scheme = "https".toList ∨ parts.scheme = "http".toList := by
      by_contra hneither
      rw [not_or] at hneither
      exact hscheme ⟨hneither.1, fun hhttp => hneither.2 hhttp.1⟩
    rcases hcases with hname | hname
    · rw [hname]
      decide
    · rw [hname]
      decide
  have hne : parts.scheme ≠ [] := by
    intro hnil
    have hletter := hisScheme.letter
    rw [hnil] at hletter
    cases hletter
  obtain ⟨path, hstripped, hrstrip⟩ := urlsplit_rstripSlashes hsplit hne hnetloc
    (fun h => hplain (Or.inl h)) fun h => hplain (Or.inr h)
  rw [client.parsed] at hstripped
  have hbase : client.parsedBase = { parts with path := path } := Option.some.inj hstripped
  have hbasePath : client.basePath = rstripSlashes parts.path := by
    rw [basePath, hbase]
    exact hrstrip
  refine ⟨⟨?_, ?_, ?_⟩, ?_⟩
  · rw [hbase]
    exact hisScheme
  · rw [hbase]
    exact hisNetloc
  · exact (isSplit_of_urlsplit client.parsed (by rw [hbase]; exact hnetloc)).2.2
  · rw [hbasePath]
    exact (isSafeThroughout_of_validateBaseUrlPath hpath).rstrip

/-! ## The URL of an accepted path -/

/-- The URL has the configured scheme and network location; its path is the configured one with the API
path behind it, and no decoding of it makes a segment that leads out. -/
structure Covers (endpoint : String) (url : String) : Prop where
  split : urlsplit lib.netlocAccepted url.toList =
    some { client.parsedBase with
      path := client.basePath ++ endpoint.toList, query := [], fragment := [] }
  decoded : ∀ k, ∃ base path, unquoteTimes k client.basePath = some base ∧
    unquoteTimes k endpoint.toList = some path ∧
    unquoteTimes k (client.basePath ++ endpoint.toList) = some (base ++ path) ∧
    hasDotSegment (base ++ path) = false ∧ ∀ c ∈ base ++ path, isForbidden c = false

theorem isPath_append {path : List Char} (hpath : IsApiPath path) : IsPath (client.basePath ++ path) := by
  obtain ⟨hbase, -⟩ := client.isBase_parsedBase
  have hstart : client.basePath <+: client.parsedBase.path := List.rdropWhile_prefix _ _
  obtain ⟨decoded, hdecoded, hsafe⟩ := hpath.safe 0
  cases hdecoded
  constructor
  · right
    cases hbasePath : client.basePath with
    | nil => exact hpath.slash
    | cons c rest =>
      rw [hbasePath] at hstart
      obtain ⟨later, hlater⟩ := hstart
      rcases hbase.path.slash with hnil | hslash
      · rw [hnil] at hlater
        cases hlater
      · rw [← hlater] at hslash
        exact hslash
  · intro hc
    rcases List.mem_append.mp hc with hc | hc
    · exact hbase.path.not_query (hstart.subset hc)
    · have hforbidden := hsafe.not_forbidden _ hc
      cases hforbidden
  · intro hc
    rcases List.mem_append.mp hc with hc | hc
    · exact hbase.path.not_fragment (hstart.subset hc)
    · have hforbidden := hsafe.not_forbidden _ hc
      cases hforbidden
  · intro c hc
    rcases List.mem_append.mp hc with hc | hc
    · exact hbase.path.not_removed c (hstart.subset hc)
    · exact isRemoved_of_toNat (hpath.visible c hc)

theorem hasDotSegment_append {base path : List Char} (hbase : hasDotSegment base = false)
    (hpath : hasDotSegment path = false) (hslash : path.head? = some '/') :
    hasDotSegment (base ++ path) = false := by
  cases path with
  | nil => cases hslash
  | cons c path =>
    cases hslash
    have hsplit : ('/' :: path).splitOn '/' = [] :: path.splitOn '/' := by
      rw [List.splitOn_cons_eq_if_modifyHead, if_pos (by simp)]
    rw [hasDotSegment, hsplit, List.any_cons, Bool.or_eq_false_iff] at hpath
    rw [hasDotSegment, List.splitOn_append_cons_self, List.any_append, Bool.or_eq_false_iff]
    exact ⟨hbase, hpath.2⟩

theorem covers_of_isApiPath {endpoint : String} (hpath : IsApiPath endpoint.toList) :
    client.Covers endpoint (String.ofList (urlunsplit ⟨client.parsedBase.scheme,
      client.parsedBase.netloc, client.basePath ++ endpoint.toList, [], []⟩)) := by
  obtain ⟨hbase, hsafe⟩ := client.isBase_parsedBase
  have hisPath := client.isPath_append hpath
  have hscheme : client.parsedBase.scheme ≠ [] := by
    intro hnil
    have hletter := hbase.scheme.letter
    rw [hnil] at hletter
    cases hletter
  constructor
  · rw [String.toList_ofList, urlunsplit_eq hscheme hbase.netloc.ne_nil hisPath.slash]
    exact urlsplit_append hbase.scheme hbase.netloc hisPath
  · intro k
    obtain ⟨base, hdecodedBase, hsafeBase⟩ := hsafe.safe k
    obtain ⟨path, hdecodedPath, hsafePath⟩ := hpath.safe k
    have hslash := head?_unquoteTimes hdecodedPath hpath.slash
    refine ⟨base, path, hdecodedBase, hdecodedPath, ?_,
      hasDotSegment_append hsafeBase.not_dot_segment hsafePath.not_dot_segment hslash, ?_⟩
    · obtain ⟨rest, hrest⟩ : ∃ rest, endpoint.toList = '/' :: rest := by
        cases hlist : endpoint.toList with
        | nil =>
          have hhead := hpath.slash
          rw [hlist] at hhead
          cases hhead
        | cons c rest =>
          have hhead := hpath.slash
          rw [hlist] at hhead
          cases hhead
          exact ⟨rest, rfl⟩
      rw [hrest] at hdecodedPath ⊢
      have happend := @unquoteTimes_append_plain [] rest '/' (by decide) k
      rw [List.nil_append, hdecodedPath, unquoteTimes_of_fixed rfl] at happend
      rw [unquoteTimes_append_plain (by decide), hdecodedBase]
      cases hlater : unquoteTimes k rest with
      | none =>
        rw [hlater] at happend
        cases happend
      | some later =>
        rw [hlater] at happend
        cases happend
        rfl
    · intro c hc
      rcases List.mem_append.mp hc with hc | hc
      · exact hsafeBase.not_forbidden c hc
      · exact hsafePath.not_forbidden c hc

/--
However often an accepted path is decoded, it stays an absolute path in which nothing leads out; and the
URL that the client makes of it stays under the base URL.
-/
theorem accepted_path_is_safe {value path : String}
    (h : validateApiPath lib.netlocAccepted value = .ok path) :
    path = value ∧
      (∀ k, ∃ decoded, unquoteTimes k value.toList = some decoded ∧
        decoded.head? = some '/' ∧ IsSafe decoded) ∧
      ∃ url, client.url value = .ok url ∧ client.Covers value url := by
  obtain ⟨rfl, hpath⟩ := isApiPath_of_validateApiPath h
  refine ⟨rfl, fun k => ?_, _, ?_, client.covers_of_isApiPath hpath⟩
  · obtain ⟨decoded, hdecoded, hsafe⟩ := hpath.safe k
    exact ⟨decoded, hdecoded, head?_unquoteTimes hdecoded hpath.slash, hsafe⟩
  · obtain ⟨first, hfirst, hsafe⟩ := hpath.safe 0
    cases hfirst
    have hsplit : urlsplit lib.netlocAccepted path.toList = some ⟨[], [], path.toList, [], []⟩ := by
      refine urlsplit_path hpath.slash hsafe.not_double_slash ?_ ?_ hpath.visible
      · intro hc
        have hforbidden := hsafe.not_forbidden _ hc
        cases hforbidden
      · intro hc
        have hforbidden := hsafe.not_forbidden _ hc
        cases hforbidden
    rw [url, validateApiPath_encoded h, hsplit]
    rfl

end CloudClient

/-! ## A doubly encoded path -/

/-- What the library does with ASCII texts without brackets. -/
def asciiUrls : UrlLibrary := ⟨fun _ => true, List.map Char.toLower⟩

/-- `https://cloud.example.com/tenant/` -/
def tenantClient : CloudClient asciiUrls where
  baseUrl := "https://cloud.example.com/tenant/".toList
  parsedBase := ⟨"https".toList, "cloud.example.com".toList, "/tenant".toList, [], []⟩
  accepted := by decide +kernel
  parsed := by decide +kernel

theorem accepted_path_is_safe_tenant :
    "/scans/%2541" = "/scans/%2541" ∧
      (∀ k, ∃ decoded, unquoteTimes k "/scans/%2541".toList = some decoded ∧
        decoded.head? = some '/' ∧ IsSafe decoded) ∧
      ∃ url, tenantClient.url "/scans/%2541" = .ok url ∧ tenantClient.Covers "/scans/%2541" url :=
  tenantClient.accepted_path_is_safe (by decide +kernel)

example : tenantClient.url "/scans/%2541" = .ok "https://cloud.example.com/tenant/scans/%2541" := by
  decide +kernel

end OsScanner.Transport
