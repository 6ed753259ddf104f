import ShadeVpn.Lib.Cursor
import ShadeVpn.Profile.Parser
import ShadeVpn.Service.Orchestrator

/-!
# Secrets in a refusal

`loadProfile` puts the message of whatever stage of the parser refused a link into the
snapshot.  Two links that differ only in the text of their secrets should be refused
alike.  A stage behind `java.net.URI` says nothing about them but whether the user info is
blank; the message of a syntax error is the link itself.  `sameFailure_iff` says exactly
when two refusals cannot be told apart.
-/

namespace ShadeVpn.Profile

open Service

/-! ## The parts of a link -/

/-- What stands before the first `d`, and what behind it. -/
def cut (d : Char) (s : List Char) : List Char × Option (List Char) :=
  (s.takeWhile (· ≠ d), if d ∈ s then some ((s.dropWhile (· ≠ d)).drop 1) else none)

/-- The parts of a link behind its scheme, as RFC 2396 has them. -/
structure Parts where
  userInfo : Option (List Char)
  hostPort : List Char
  path : List Char
  query : Option (List Char)
  fragment : Option (List Char)

def parts (raw : String) : Parts :=
  let text := raw.toList.drop 8
  let front := (cut '#' text).1
  let authority := (cut '?' front).1.takeWhile (· ≠ '/')
  { userInfo := if '@' ∈ authority then some (cut '@' authority).1 else none
    hostPort := (cut '@' authority).2.getD authority
    path := (cut '?' front).1.dropWhile (· ≠ '/')
    query := (cut '?' front).2
    fragment := (cut '#' text).2 }

/-- A text in which every `%` stands before two hexadecimal digits. -/
def WellEscaped : List Char → Prop
  | [] => True
  | '%' :: a :: b :: s => IsHex a ∧ IsHex b ∧ WellEscaped s
  | c :: s => c ≠ '%' ∧ WellEscaped s
where
  IsHex (c : Char) : Prop := c.isDigit ∨ 'a' ≤ c ∧ c ≤ 'f' ∨ 'A' ≤ c ∧ c ≤ 'F'

/-- What the parser relies on in the platform's two classes. -/
structure Documented (java : JavaNet) : Prop where
  /-- The message of a `URISyntaxException` is a reason, a colon and the input. -/
  syntaxError : ∀ {raw m}, java.uri raw = .error m → ∃ reason : String,
    m = reason ++ ": " ++ raw ∧ ':' ∉ reason.toList ∧ reason ≠ "Unsupported network type"
  /-- `getRawQuery` is the query as it stands in the link. -/
  rawQuery : ∀ {raw u}, isVless raw = true → java.uri raw = .ok u →
    u.rawQuery = (parts raw).query.map String.ofList
  /-- A link with a malformed escape is a syntax error. -/
  wellEscaped : ∀ {raw u q}, java.uri raw = .ok u → u.rawQuery = some q → WellEscaped q.toList
  /-- `getHost` is read off the host and port of the link. -/
  host : ∀ {a b u v}, isVless a = true → isVless b = true → java.uri a = .ok u →
    java.uri b = .ok v → (parts a).hostPort = (parts b).hostPort → u.host = v.host
  /-- `URLDecoder.decode` throws on malformed escapes only. -/
  decode : ∀ {s}, WellEscaped s.toList → ∃ t, java.decode s = .ok t

/-! ## Links with the same public parts -/

variable (java : JavaNet)

/-- The parameters whose values are secret. -/
def secretKeys : List String := ["pbk", "publicKey", "sid", "shortId"]

/-- The key of a `key=value`, as it stands there. -/
def rawKey (pair : List Char) : List Char := pair.takeWhile (· ≠ '=')

/-- A pair for a secret. -/
def isSecret (pair : List Char) : Bool :=
  match java.decode (String.ofList (rawKey pair)) with
  | .ok key => key ∈ secretKeys
  | .error _ => false

/-- A pair without its value, if that is secret. -/
def redactPair (pair : List Char) : List Char :=
  if '=' ∈ pair ∧ isSecret java pair then rawKey pair ++ ['='] else pair

def redactQuery (query : List Char) : List (List Char) :=
  (query.splitOn '&').map (redactPair java)

/-- Two links that differ at most in the texts of user info, public key and short id. -/
structure SamePublic (a b : String) : Prop where
  userInfo : (parts a).userInfo.isSome = (parts b).userInfo.isSome
  hostPort : (parts a).hostPort = (parts b).hostPort
  path : (parts a).path = (parts b).path
  query : (parts a).query.map (redactQuery java) = (parts b).query.map (redactQuery java)
  fragment : (parts a).fragment = (parts b).fragment

/-- Two raw profiles that differ at most in the texts of their secrets.  A text without
the scheme has no public part, so any two of them do. -/
structure SameButSecrets (a b : String) : Prop where
  scheme : isVless a = isVless b
  link : isVless a = true → SamePublic java a b

/-! ## Loading a profile -/

/-- Two snapshots show the same failure. -/
def SameFailure (s t : ConnectionSnapshot) : Prop :=
  s.statusLine = t.statusLine ∧ s.failureReason = t.failureReason ∧
    s.failureDetail = t.failureDetail

variable {java}

theorem sameFailure_loadProfile {κ : Type} {m n : String} (x y : App κ) :
    SameFailure (x.loadProfile (.error m)).snapshot (y.loadProfile (.error n)).snapshot ↔
      m = n := by
  simp [SameFailure, App.loadProfile, App.mutate, ConnectionSnapshot.profileRejected]

/-! ## Escapes -/

theorem WellEscaped.of_not_mem {s : List Char} (h : '%' ∉ s) : WellEscaped s := by
  induction s with
  | nil => trivial
  | cons c s ih =>
    rw [List.mem_cons, not_or] at h
    rw [WellEscaped]
    · exact ⟨fun heq => h.1 heq.symm, ih h.2⟩
    · rintro a b t rfl
      exact absurd rfl h.1

/-- Cutting at a character that is part of no escape cuts no escape. -/
theorem WellEscaped.of_append {d : Char} (hd : ¬ WellEscaped.IsHex d) (hpercent : d ≠ '%')
    {s t : List Char} (h : WellEscaped (s ++ d :: t)) : WellEscaped s ∧ WellEscaped t := by
  induction s using WellEscaped.induct with
  | case1 =>
    rw [List.nil_append, WellEscaped] at h
    · exact ⟨trivial, h.2⟩
    · rintro _ _ _ rfl
      exact absurd rfl hpercent
  | case2 a b s ih =>
    obtain ⟨ha, hb, h⟩ := h
    exact ⟨⟨ha, hb, (ih h).1⟩, (ih h).2⟩
  | case3 c s hc ih =>
    by_cases hne : c = '%'
    · subst hne
      match s with
      | [] =>
        cases t with
        | nil => exact absurd rfl h.1
        | cons e t => exact absurd h.1 hd
      | [a] => exact absurd h.2.1 hd
      | a :: b :: s => exact absurd rfl (hc a b s rfl)
    · have hleft : WellEscaped (s ++ d :: t) := by
        rw [List.cons_append, WellEscaped] at h
        · exact h.2
        · rintro _ _ _ rfl
          exact absurd rfl hne
      refine ⟨?_, (ih hleft).2⟩
      rw [WellEscaped]
      · exact ⟨hne, (ih hleft).1⟩
      · exact fun _ _ _ heq => absurd heq hne

theorem WellEscaped.of_intercalate {pieces : List (List Char)}
    (h : WellEscaped (['&'].intercalate pieces)) : ∀ piece ∈ pieces, WellEscaped piece := by
  induction pieces with
  | nil => simp
  | cons piece pieces ih =>
    cases pieces with
    | nil => simpa using h
    | cons next pieces =>
      rw [List.intercalate_cons_cons, List.append_assoc, List.singleton_append] at h
      have hcut := h.of_append (by unfold WellEscaped.IsHex; decide) (by decide)
      exact List.forall_mem_cons.2 ⟨hcut.1, ih hcut.2⟩

theorem dropWhile_of_mem {d : Char} {s : List Char} (h : d ∈ s) :
    s.dropWhile (· ≠ d) = d :: (s.dropWhile (· ≠ d)).drop 1 := by
  induction s with
  | nil => cases h
  | cons c s ih =>
    by_cases hc : c = d
    · simp [hc]
    · have hmem : d ∈ s := (List.mem_cons.1 h).resolve_left fun heq => hc heq.symm
      rw [List.dropWhile_cons_of_pos (by simpa using hc)]
      exact ih hmem

/-- A pair without a malformed escape is parsed. -/
theorem parsePair_ok (hjava : Documented java) {pair : List Char} (h : WellEscaped pair) :
    ∃ p, parsePair java pair = .ok p := by
  have hof : ∀ {s : List Char}, WellEscaped s → ∃ t, java.decode (String.ofList s) = .ok t :=
    fun hs => hjava.decode (by rwa [String.toList_ofList])
  by_cases heq : '=' ∈ pair
  · have hcut : WellEscaped (rawKey pair ++ '=' :: (pair.dropWhile (· ≠ '=')).drop 1) := by
      rwa [← dropWhile_of_mem heq, rawKey, List.takeWhile_append_dropWhile]
    have hboth := hcut.of_append (by unfold WellEscaped.IsHex; decide) (by decide)
    obtain ⟨key, hkey⟩ := hof hboth.1
    obtain ⟨value, hvalue⟩ := hof hboth.2
    refine ⟨(key, value), ?_⟩
    rw [parsePair, if_pos heq, ← rawKey, hkey, hvalue]
    rfl
  · obtain ⟨key, hkey⟩ := hof h
    refine ⟨(key, ""), ?_⟩
    rw [parsePair, if_neg heq, hkey]
    rfl

/-- A blank query has no pairs, so that `parseQuery` need not have asked. -/
theorem parseQuery_some (q : String) :
    parseQuery java (some q) = (queryPairs q.toList).mapM (parsePair java) := by
  rw [parseQuery, unlessBlank, Option.filter_some]
  by_cases hblank : isBlank q = true
  · have hmem : '&' ∉ q.toList := fun hmem =>
      absurd (List.all_eq_true.1 hblank _ hmem) (by decide)
    rw [hblank, queryPairs, List.splitOn_eq_singleton hmem, List.filter_cons_of_neg]
    · rfl
    · simpa [isBlank] using hblank
  · rw [Bool.not_eq_true] at hblank
    rw [hblank]
    rfl

theorem mapM_parsePair_ok (hjava : Documented java) {pairs : List (List Char)}
    (h : ∀ pair ∈ pairs, WellEscaped pair) :
    ∃ params, pairs.mapM (parsePair java) = .ok params := by
  induction pairs with
  | nil => exact ⟨[], rfl⟩
  | cons pair pairs ih =>
    rw [List.forall_mem_cons] at h
    obtain ⟨p, hp⟩ := parsePair_ok hjava h.1
    obtain ⟨params, hparams⟩ := ih h.2
    exact ⟨p :: params, by rw [List.mapM_cons, hp, hparams]; rfl⟩

/-- **The query of a link that is a URI is parsed.** -/
theorem parseQuery_ok (hjava : Documented java) {raw : String} {u : Uri}
    (h : java.uri raw = .ok u) : ∃ params, parseQuery java u.rawQuery = .ok params := by
  cases hq : u.rawQuery with
  | none => exact ⟨[], rfl⟩
  | some q =>
    have hwell := hjava.wellEscaped h hq
    rw [← @List.intercalate_splitOn _ q.toList _ _ '&'] at hwell
    rw [parseQuery_some]
    exact mapM_parsePair_ok hjava fun pair hpair =>
      hwell.of_intercalate pair (List.mem_filter.1 hpair).1

/-! ## What a redacted query shows -/

theorem redactPair_eq {p q : List Char} (h : redactPair java p = redactPair java q) :
    p = q ∨ ('=' ∈ p ∧ '=' ∈ q ∧ isSecret java p = true ∧ rawKey p = rawKey q) := by
  have hkey : ∀ s : List Char, rawKey (rawKey s ++ ['=']) = rawKey s := by
    intro s
    have hall : ∀ c ∈ rawKey s, decide (c ≠ '=') = true := fun c hc => by
      simpa using List.mem_takeWhile_imp hc
    rw [rawKey, List.takeWhile_append_of_pos hall]
    simp
  have hsecret : ∀ s : List Char, isSecret java (rawKey s ++ ['=']) = isSecret java s := by
    intro s
    rw [isSecret, isSecret, hkey]
  rw [redactPair, redactPair] at h
  split_ifs at h with hp hq hq
  · exact Or.inr ⟨hp.1, hq.1, hp.2, by rw [← hkey p, ← hkey q, h]⟩
  · subst h
    exact absurd ⟨by simp, (hsecret p).trans hp.2⟩ hq
  · subst h
    exact absurd ⟨by simp, (hsecret q).trans hq.2⟩ hp
  · exact Or.inl h

theorem redactPair_blank (pair : List Char) :
    (redactPair java pair).all isWhitespace = pair.all isWhitespace := by
  rw [redactPair]
  split_ifs with h
  · have hne : ∀ s : List Char, '=' ∈ s → s.all isWhitespace = false := fun s hs =>
      List.all_eq_false.2 ⟨'=', hs, by decide⟩
    rw [hne _ (by simp), hne _ h.1]
  · rfl

theorem queryPairs_redact (q : List Char) :
    (queryPairs q).map (redactPair java) =
      (redactQuery java q).filter fun pair => !pair.all isWhitespace := by
  rw [queryPairs, redactQuery, List.filter_map]
  congr 2
  funext pair
  simp [Function.comp, redactPair_blank]

/-- The parameters that are no secret. -/
def openParams (params : List (String × String)) : List (String × String) :=
  params.filter fun p => p.1 ∉ secretKeys

theorem param_openParams {key : String} (h : key ∉ secretKeys) (params : List (String × String)) :
    param (openParams params) key = param params key := by
  rw [param, param, openParams, ← List.filter_reverse]
  induction params.reverse with
  | nil => rfl
  | cons p ps ih =>
    by_cases hp : p.1 ∈ secretKeys
    · have hne : (key == p.1) = false := by
        rw [beq_eq_false_iff_ne]
        rintro rfl
        exact h hp
      rw [List.filter_cons_of_neg (by simpa using hp), ih, List.lookup, hne]
    · rw [List.filter_cons_of_pos (by simpa using hp), List.lookup, List.lookup, ih]

theorem checkParams_openParams (params : List (String × String)) :
    checkParams (openParams params) = checkParams params := by
  rw [checkParams, checkParams, param_openParams (by decide), param_openParams (by decide)]

theorem parsePair_key {p : List Char} (hmem : '=' ∈ p) {x : String × String}
    (h : parsePair java p = .ok x) : java.decode (String.ofList (rawKey p)) = .ok x.1 := by
  rw [parsePair, if_pos hmem] at h
  simp only [Cursor.bind_eq_ok] at h
  obtain ⟨key, hkey, value, -, hx⟩ := h
  cases hx
  exact hkey

/-- Pairs that redact alike are parsed alike, unless they are for a secret. -/
theorem parsePair_redact {p q : List Char} (h : redactPair java p = redactPair java q)
    {x y : String × String} (hx : parsePair java p = .ok x) (hy : parsePair java q = .ok y) :
    x = y ∨ x.1 ∈ secretKeys ∧ y.1 ∈ secretKeys := by
  rcases redactPair_eq h with rfl | ⟨hp, hq, hsecret, hkey⟩
  · exact Or.inl (Except.ok.inj (hx.symm.trans hy))
  · have hxkey := parsePair_key hp hx
    have hykey := parsePair_key hq hy
    rw [isSecret, hxkey] at hsecret
    rw [← hkey, hxkey, Except.ok.injEq] at hykey
    have hmem : x.1 ∈ secretKeys := of_decide_eq_true hsecret
    exact Or.inr ⟨hmem, hykey ▸ hmem⟩

theorem openParams_eq {ps qs : List (List Char)}
    (h : ps.map (redactPair java) = qs.map (redactPair java)) {xs ys : List (String × String)}
    (hx : ps.mapM (parsePair java) = .ok xs) (hy : qs.mapM (parsePair java) = .ok ys) :
    openParams xs = openParams ys := by
  induction ps generalizing qs xs ys with
  | nil =>
    obtain rfl : qs = [] := by simpa using h.symm
    cases hx
    cases hy
    rfl
  | cons p ps ih =>
    cases qs with
    | nil => cases h
    | cons q qs =>
      rw [List.map_cons, List.map_cons, List.cons.injEq] at h
      rw [List.mapM_cons] at hx hy
      simp only [Cursor.bind_eq_ok] at hx hy
      obtain ⟨x, hx, xs, hxs, hcons⟩ := hx
      cases hcons
      obtain ⟨y, hy, ys, hys, hcons⟩ := hy
      cases hcons
      have htail := ih h.2 hxs hys
      rw [openParams, openParams] at htail ⊢
      rcases parsePair_redact h.1 hx hy with rfl | ⟨hxsecret, hysecret⟩
      · rw [List.filter_cons, List.filter_cons, htail]
      · rw [List.filter_cons_of_neg (by simpa using hxsecret),
          List.filter_cons_of_neg (by simpa using hysecret), htail]

/-- **The checks say the same** of two queries that differ in secrets only. -/
theorem checkParams_eq {p q : Option (List Char)}
    (h : p.map (redactQuery java) = q.map (redactQuery java)) {xs ys : List (String × String)}
    (hx : parseQuery java (p.map String.ofList) = .ok xs)
    (hy : parseQuery java (q.map String.ofList) = .ok ys) : checkParams xs = checkParams ys := by
  rw [← checkParams_openParams xs, ← checkParams_openParams ys]
  congr 1
  rcases p with _ | p <;> rcases q with _ | q
  · cases hx
    cases hy
    rfl
  · cases h
  · cases h
  · rw [Option.map_some, parseQuery_some, String.toList_ofList] at hx hy
    rw [Option.map_some, Option.map_some, Option.some.injEq] at h
    exact openParams_eq (by rw [queryPairs_redact, queryPairs_redact, h]) hx hy

/-! ## Refusals -/

/-- Why the parser refuses a link behind the test on its scheme, and what it says then. -/
inductive Refusal (java : JavaNet) (raw : String) : String → Prop
  | uri {m} (h : java.uri raw = .error m) : Refusal java raw m
  | user {u} (huri : java.uri raw = .ok u) (h : unlessBlank u.userInfo = none) :
    Refusal java raw "Missing UUID"
  | host {u} (huri : java.uri raw = .ok u) (huser : unlessBlank u.userInfo ≠ none)
    (h : unlessBlank u.host = none) : Refusal java raw "Missing host"
  | query {u m} (huri : java.uri raw = .ok u) (h : parseQuery java u.rawQuery = .error m) :
    Refusal java raw m
  | params {u params m} (huri : java.uri raw = .ok u) (huser : unlessBlank u.userInfo ≠ none)
    (hhost : unlessBlank u.host ≠ none) (hparams : parseQuery java u.rawQuery = .ok params)
    (h : checkParams params = .error m) : Refusal java raw m

theorem orError_eq_error {α : Type} {message m : String} {o : Option α}
    (h : orError message o = .error m) : o = none ∧ m = message := by
  cases o with
  | none => exact ⟨rfl, (Except.error.inj h).symm⟩
  | some a => cases h

theorem orError_eq_ok {α : Type} {message : String} {o : Option α} {a : α}
    (h : orError message o = .ok a) : o ≠ none := by
  cases o with
  | none => cases h
  | some b => exact Option.some_ne_none b

theorem refusal_of_parse {raw m : String} (hscheme : isVless raw = true)
    (h : parse java raw = .error m) : Refusal java raw m := by
  rw [parse, hscheme] at h
  rcases Cursor.bind_eq_error.1 h with hrequire | ⟨-, -, h⟩
  · cases hrequire
  rcases Cursor.bind_eq_error.1 h with huri | ⟨u, huri, h⟩
  · exact .uri huri
  rcases Cursor.bind_eq_error.1 h with huser | ⟨uuid, huser, h⟩
  · obtain ⟨hnone, rfl⟩ := orError_eq_error huser
    exact .user huri hnone
  rcases Cursor.bind_eq_error.1 h with hhost | ⟨host, hhost, h⟩
  · obtain ⟨hnone, rfl⟩ := orError_eq_error hhost
    exact .host huri (orError_eq_ok huser) hnone
  rcases Cursor.bind_eq_error.1 h with hquery | ⟨params, hparams, h⟩
  · exact .query huri hquery
  rcases Cursor.bind_eq_error.1 h with hcheck | ⟨checked, -, h⟩
  · exact .params huri (orError_eq_ok huser) (orError_eq_ok hhost) hparams hcheck
  · cases h

theorem checkParams_eq_error {params : List (String × String)} {m : String}
    (h : checkParams params = .error m) :
    m = "Only Reality is supported" ∨ ∃ network, m = "Unsupported network type: " ++ network := by
  rw [checkParams] at h
  rcases Cursor.bind_eq_error.1 h with hsecurity | ⟨-, -, h⟩
  · rw [require] at hsecurity
    split_ifs at hsecurity
    exact Or.inl (Except.error.inj hsecurity).symm
  rcases Cursor.bind_eq_error.1 h with hnetwork | ⟨-, -, h⟩
  · rw [require] at hnetwork
    split_ifs at hnetwork
    exact Or.inr ⟨_, (Except.error.inj hnetwork).symm⟩
  · cases h

/-- What stands before the first colon of a message. -/
def beforeColon (m : String) : List Char := m.toList.takeWhile (· ≠ ':')

theorem beforeColon_append {reason : String} (h : ':' ∉ reason.toList) (rest : String) :
    beforeColon (reason ++ ": " ++ rest) = reason.toList := by
  have hall : ∀ c ∈ reason.toList, decide (c ≠ ':') = true := by
    intro c hc
    have hne : c ≠ ':' := fun heq => h (heq ▸ hc)
    simpa using hne
  rw [beforeColon, String.append_assoc, String.toList_append, List.takeWhile_append_of_pos hall,
    String.toList_append]
  have hcolon : ": ".toList = [':', ' '] := rfl
  simp [hcolon]

/-- **The message of a syntax error** is that of no other refusal. -/
theorem uri_message (hjava : Documented java) {a b m : String} (ha : java.uri a = .error m)
    (hb : Refusal java b m) : java.uri b = .error m := by
  obtain ⟨reason, hm, hcolon, hreason⟩ := hjava.syntaxError ha
  have hmem : ':' ∈ m.toList := by
    rw [hm]
    simp
  have hbefore : beforeColon m = reason.toList := by rw [hm, beforeColon_append hcolon]
  cases hb with
  | uri h => exact h
  | user => exact absurd hmem (by decide)
  | host => exact absurd hmem (by decide)
  | query huri h =>
    obtain ⟨params, hparams⟩ := parseQuery_ok hjava huri
    rw [hparams] at h
    cases h
  | params huri huser hhost hparams h =>
    rcases checkParams_eq_error h with rfl | ⟨network, rfl⟩
    · exact absurd hmem (by decide)
    · have heq : "Unsupported network type: " = "Unsupported network type" ++ ": " := rfl
      rw [heq, beforeColon_append (by decide)] at hbefore
      exact absurd (String.toList_inj.1 hbefore.symm) hreason

theorem uri_message_inj (hjava : Documented java) {a b m : String} (ha : java.uri a = .error m)
    (hb : java.uri b = .error m) : a = b := by
  obtain ⟨reason, hm, hcolon, -⟩ := hjava.syntaxError ha
  obtain ⟨reason', hm', hcolon', -⟩ := hjava.syntaxError hb
  have hreason : reason = reason' := by
    rw [← String.toList_inj, ← beforeColon_append hcolon a, ← hm, hm', beforeColon_append hcolon']
  subst hreason
  rw [hm, ← String.toList_inj, String.toList_append, String.toList_append (t := b),
    List.append_cancel_left_eq, String.toList_inj] at hm'
  exact hm'

/-! ## Two refusals -/

/-- Both are URIs, with the user info blank in both or in neither. -/
def BothUris (java : JavaNet) (a b : String) : Prop :=
  ∃ u v, java.uri a = .ok u ∧ java.uri b = .ok v ∧
    (unlessBlank u.userInfo = none ↔ unlessBlank v.userInfo = none)

/-- What a URI is refused with, given the message of the checks. -/
theorem refusal_uri {raw m : String} (h : Refusal java raw m) {u : Uri}
    (huri : java.uri raw = .ok u) {params : List (String × String)}
    (hparams : parseQuery java u.rawQuery = .ok params) :
    (unlessBlank u.userInfo = none ∧ m = "Missing UUID") ∨
    (unlessBlank u.userInfo ≠ none ∧ unlessBlank u.host = none ∧ m = "Missing host") ∨
    (unlessBlank u.userInfo ≠ none ∧ unlessBlank u.host ≠ none ∧ checkParams params = .error m) := by
  cases h with
  | uri h => rw [huri] at h; cases h
  | user huri' h =>
    cases huri.symm.trans huri'
    exact Or.inl ⟨h, rfl⟩
  | host huri' huser h =>
    cases huri.symm.trans huri'
    exact Or.inr (Or.inl ⟨huser, h, rfl⟩)
  | query huri' h =>
    cases huri.symm.trans huri'
    rw [hparams] at h
    cases h
  | params huri' huser hhost hparams' h =>
    cases huri.symm.trans huri'
    cases hparams.symm.trans hparams'
    exact Or.inr (Or.inr ⟨huser, hhost, h⟩)

theorem checks_ne_missing {params : List (String × String)} {m : String}
    (h : checkParams params = .error m) : m ≠ "Missing UUID" ∧ m ≠ "Missing host" := by
  rcases checkParams_eq_error h with rfl | ⟨network, rfl⟩
  · decide
  · constructor <;> intro heq <;>
      have hlen := congrArg (fun s => s.toList.take 1) heq <;>
      simp at hlen

theorem bothUris_comm {a b : String} : BothUris java a b ↔ BothUris java b a :=
  ⟨fun ⟨u, v, hu, hv, h⟩ => ⟨v, u, hv, hu, h.symm⟩, fun ⟨u, v, hu, hv, h⟩ => ⟨v, u, hv, hu, h.symm⟩⟩

theorem message_eq_iff_of_uri_error (hjava : Documented java) {a b m n e : String}
    (ha : parse java a = .error m) (hb : parse java b = .error n) (hra : Refusal java a m)
    (hrb : Refusal java b n) (he : java.uri a = .error e) : m = n ↔ a = b ∨ BothUris java a b := by
  have huri : java.uri a = .error m := by
    cases hra with
    | uri h => exact h
    | user h | host h | query h | params h => rw [he] at h; cases h
  constructor
  · rintro rfl
    exact Or.inl (uri_message_inj hjava huri (uri_message hjava huri hrb))
  · rintro (rfl | ⟨u, -, hu, -⟩)
    · exact Except.error.inj (ha.symm.trans hb)
    · rw [huri] at hu
      cases hu

theorem message_eq_iff_of_uris (hjava : Documented java) {a b m n : String} {u v : Uri}
    (h : SamePublic java a b) (hscheme : isVless a = true) (hscheme' : isVless b = true)
    (hra : Refusal java a m) (hrb : Refusal java b n) (hu : java.uri a = .ok u)
    (hv : java.uri b = .ok v) :
    m = n ↔ (unlessBlank u.userInfo = none ↔ unlessBlank v.userInfo = none) := by
  obtain ⟨xs, hxs⟩ := parseQuery_ok hjava hu
  obtain ⟨ys, hys⟩ := parseQuery_ok hjava hv
  have hhost : u.host = v.host := hjava.host hscheme hscheme' hu hv h.hostPort
  have hchecks : checkParams xs = checkParams ys := by
    rw [hjava.rawQuery hscheme hu] at hxs
    rw [hjava.rawQuery hscheme' hv] at hys
    exact checkParams_eq h.query hxs hys
  have hb := refusal_uri hrb hv hys
  rw [← hhost, ← hchecks] at hb
  rcases refusal_uri hra hu hxs with ⟨huser, rfl⟩ | ⟨huser, hnone, rfl⟩ | ⟨huser, hsome, herror⟩ <;>
    rcases hb with ⟨huser', rfl⟩ | ⟨huser', hnone', rfl⟩ | ⟨huser', hsome', herror'⟩
  · exact iff_of_true rfl (iff_of_true huser huser')
  · exact iff_of_false (by decide) fun hiff => huser' (hiff.1 huser)
  · exact iff_of_false (checks_ne_missing herror').1.symm fun hiff => huser' (hiff.1 huser)
  · exact iff_of_false (by decide) fun hiff => huser (hiff.2 huser')
  · exact iff_of_true rfl (iff_of_false huser huser')
  · exact absurd hnone hsome'
  · exact iff_of_false (checks_ne_missing herror).1 fun hiff => huser (hiff.2 huser')
  · exact absurd hnone' hsome
  · exact iff_of_true (Except.error.inj (herror.symm.trans herror')) (iff_of_false huser huser')

theorem message_eq_iff_of_links (hjava : Documented java) {a b m n : String}
    (h : SamePublic java a b) (hscheme : isVless a = true) (hscheme' : isVless b = true)
    (ha : parse java a = .error m) (hb : parse java b = .error n) :
    m = n ↔ a = b ∨ BothUris java a b := by
  have hra := refusal_of_parse hscheme ha
  have hrb := refusal_of_parse hscheme' hb
  cases hu : java.uri a with
  | error e => exact message_eq_iff_of_uri_error hjava ha hb hra hrb hu
  | ok u =>
    cases hv : java.uri b with
    | error e =>
      rw [eq_comm, eq_comm (a := a), bothUris_comm]
      exact message_eq_iff_of_uri_error hjava hb ha hrb hra hv
    | ok v =>
      rw [message_eq_iff_of_uris hjava h hscheme hscheme' hra hrb hu hv]
      constructor
      · exact fun hblank => Or.inr ⟨u, v, hu, hv, hblank⟩
      · rintro (rfl | ⟨u', v', hu', hv', hblank⟩)
        · cases hu.symm.trans hv
          exact Iff.rfl
        · cases hu.symm.trans hu'
          cases hv.symm.trans hv'
          exact hblank

theorem parse_of_not_vless {raw : String} (h : isVless raw = false) :
    parse java raw = .error "Only vless:// profiles are supported" := by
  rw [parse, require, h]
  rfl

/-- Two refusals have one message just when they look the same. -/
theorem message_eq_iff (hjava : Documented java) {a b m n : String}
    (h : SameButSecrets java a b) (ha : parse java a = .error m) (hb : parse java b = .error n) :
    m = n ↔ a = b ∨ isVless a = false ∨ BothUris java a b := by
  cases hscheme : isVless a with
  | false =>
    refine iff_of_true ?_ (Or.inr (Or.inl rfl))
    rw [parse_of_not_vless hscheme] at ha
    rw [parse_of_not_vless (h.scheme ▸ hscheme)] at hb
    exact (Except.error.inj ha).symm.trans (Except.error.inj hb)
  | true =>
    rw [message_eq_iff_of_links hjava (h.link hscheme) hscheme (h.scheme ▸ hscheme) ha hb]
    simp

/-- **Two refusals look the same** just when the texts are the same, or have no vless
scheme, or both are URIs and the user info is blank in both or in neither. -/
theorem sameFailure_iff (hjava : Documented java) {κ : Type} {a b m n : String}
    (h : SameButSecrets java a b) (ha : parse java a = .error m) (hb : parse java b = .error n)
    (x y : App κ) :
    SameFailure (x.loadProfile (parse java a)).snapshot (y.loadProfile (parse java b)).snapshot ↔
      a = b ∨ isVless a = false ∨ BothUris java a b := by
  rw [ha, hb, sameFailure_loadProfile, message_eq_iff hjava h ha hb]

/-! ## Platforms -/

/-- A platform for links without escapes. -/
def plainNet : JavaNet where
  uri raw :=
    if ' ' ∈ raw.toList ∨ '%' ∈ raw.toList then
      .error ("Illegal character in authority at index 8: " ++ raw)
    else
      .ok {
        userInfo := (parts raw).userInfo.map String.ofList
        host := if (parts raw).hostPort = [] then none else some (String.ofList (parts raw).hostPort)
        port := -1
        rawQuery := (parts raw).query.map String.ofList
        fragment := (parts raw).fragment.map String.ofList }
  decode := .ok

theorem subset_cut (d : Char) (s : List Char) : (cut d s).1 ⊆ s :=
  (List.takeWhile_prefix _).subset

theorem mem_of_cut {d c : Char} {s t : List Char} (h : (cut d s).2 = some t) (hc : c ∈ t) :
    c ∈ s := by
  by_cases hd : d ∈ s
  · rw [cut, if_pos hd] at h
    obtain rfl := Option.some.inj h
    exact (List.dropWhile_suffix _).subset (List.mem_of_mem_drop hc)
  · rw [cut, if_neg hd] at h
    cases h

theorem mem_of_query {raw : String} {q : List Char} {c : Char} (h : (parts raw).query = some q)
    (hc : c ∈ q) : c ∈ raw.toList :=
  List.mem_of_mem_drop (subset_cut '#' _ (mem_of_cut h hc))

theorem plainNet_uri_ok {raw : String} {u : Uri} (h : plainNet.uri raw = .ok u) :
    '%' ∉ raw.toList ∧ u.rawQuery = (parts raw).query.map String.ofList ∧
      u.host = if (parts raw).hostPort = [] then none
        else some (String.ofList (parts raw).hostPort) := by
  simp only [plainNet] at h
  by_cases hbad : ' ' ∈ raw.toList ∨ '%' ∈ raw.toList
  · rw [if_pos hbad] at h
    cases h
  · rw [if_neg hbad] at h
    cases h
    exact ⟨fun hmem => hbad (Or.inr hmem), rfl, rfl⟩

theorem plainNet_documented : Documented plainNet where
  syntaxError {raw m} h := by
    simp only [plainNet] at h
    split_ifs at h
    exact ⟨"Illegal character in authority at index 8", (Except.error.inj h).symm, by decide,
      by decide⟩
  rawQuery _ h := (plainNet_uri_ok h).2.1
  wellEscaped {raw u q} h hq := by
    obtain ⟨hplain, hquery, -⟩ := plainNet_uri_ok h
    rw [hquery] at hq
    obtain ⟨cs, hcs, rfl⟩ := Option.map_eq_some_iff.1 hq
    rw [String.toList_ofList]
    exact WellEscaped.of_not_mem fun hmem => hplain (mem_of_query hcs hmem)
  host _ _ ha hb heq := by
    rw [(plainNet_uri_ok ha).2.2, (plainNet_uri_ok hb).2.2, heq]
  decode _ := ⟨_, rfl⟩

theorem sameFailure_tls :
    SameFailure
      ((App.new "1" : App Unit).loadProfile
        (parse plainNet "vless://id@h.example?security=tls&pbk=key")).snapshot
      ((App.new "1" : App Unit).loadProfile
        (parse plainNet "vless://other@h.example?security=tls&pbk=k")).snapshot :=
  (sameFailure_iff plainNet_documented ⟨by decide +kernel, fun _ => by constructor <;> decide +kernel⟩
    (m := "Only Reality is supported") (n := "Only Reality is supported")
    (by decide +kernel) (by decide +kernel) _ _).2
    (Or.inr (Or.inr ⟨_, _, rfl, rfl, by decide +kernel⟩))

/-- **A malformed link is shown with its secrets.** -/
theorem not_sameFailure : ¬ ∀ (java : JavaNet) (a b m n : String) (x : App Unit),
    Documented java → SameButSecrets java a b → parse java a = .error m →
    parse java b = .error n →
    SameFailure (x.loadProfile (parse java a)).snapshot
      (x.loadProfile (parse java b)).snapshot := by
  intro hall
  have hsame := hall plainNet "vless://a b@h.example" "vless://c d@h.example"
    "Illegal character in authority at index 8: vless://a b@h.example"
    "Illegal character in authority at index 8: vless://c d@h.example" (App.new "1")
    plainNet_documented ⟨by decide +kernel, fun _ => by constructor <;> decide +kernel⟩
    (by decide +kernel) (by decide +kernel)
  exact absurd hsame.2.2 (by decide +kernel)

end ShadeVpn.Profile
