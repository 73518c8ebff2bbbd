import Lnvps.Lib.Outcome
import Lnvps.Lib.Url
import Mathlib.Tactic

/-! # Where a login sends its token -/

namespace Lnvps

open Url Outcome List Option

structure OAuthConfig where
 successRedirect : Option Text := none
 allowedRedirects : List Text := []
 providers : List String := []

namespace OAuth

def afterScheme : Text → Option Text
 | ':' :: '/' :: '/' :: rest => some rest
 | _ :: rest => afterScheme rest
 | [] => none

def urlHost (url : Text) : Option Text := do
 let rest ← afterScheme url
 let authority := rest.takeWhile (!ends false ·)
 let hostPort := afterAt authority
 let host := hostPort.takeWhile (· ≠ ':')
 if host = [] then none else some host

def localhost : Text := "localhost".toList

def extendsUrl (requested allowed : Text) : Bool :=
 match allowed.isPrefixOf? requested with
 | none => false
 | some [] => true
 | some (c :: _) => c = '/' ∨ c = '?' ∨ c = '#'

def configured (cfg : OAuthConfig) : List Text := cfg.successRedirect.toList ++ cfg.allowedRedirects

def isAllowedRedirect (cfg : OAuthConfig) (requested : Text) : Bool :=
 (urlHost requested).any (fun host => lower host = localhost) || (configured cfg).any (extendsUrl requested)

structure StateToken where
 provider : String
 redirect : Option Text
 deriving DecidableEq

def resolveProvider (oauth : Option OAuthConfig) (provider : String) : Except String OAuthConfig := do
 let cfg ← ofOption "OAuth not configured" oauth
 ensure (cfg.providers.contains provider) "Unknown OAuth provider"
 return cfg

def v1OauthLogin (oauth : Option OAuthConfig) (provider : String) (redirect : Option Text) :
  Except String StateToken := do
 let cfg ← resolveProvider oauth provider
 ensure (redirect.all (isAllowedRedirect cfg)) "Redirect not allowed"
 return { provider, redirect }

structure CallbackParams where
 code : Option String := none
 state : Option StateToken := none
 error : Option String := none

inductive Response
 | redirect (location : Text)
 | json (token : Text)
 | internalError

def headerChar (c : Char) : Bool := c = '\t' ∨ (' ' ≤ c ∧ c ≠ '\x7f')

def tokenPart (redirect token : Text) : Text :=
 (if redirect.contains '#' then '&' else '#') :: ("token=".toList ++ urlencodingEncode token)

def location (redirect token : Text) : Text := redirect ++ tokenPart redirect token

def redirectTo (url : Text) : Response := if url.all headerChar then .redirect url else .internalError

def handleCallback (oauth : Option OAuthConfig) (provider : String) (q : CallbackParams)
  (session : Except String Text) : Except String Response := do
 ensure q.error.isNone ("OAuth provider returned error: " ++ q.error.getD "")
 let _ ← ofOption "Missing authorization code" q.code
 let state ← ofOption "Missing state" q.state
 ensure (state.provider = provider) "State provider mismatch"
 let cfg ← resolveProvider oauth provider
 let token ← session
 return match state.redirect.or cfg.successRedirect with
  | some redirect => redirectTo (location redirect token)
  | none => .json token

def http (scheme : Text) : Bool := scheme = "http".toList ∨ scheme = "https".toList

variable (parseHost : HostParser)

def absoluteHttp (url : Text) : Bool :=
 url.all (!c0OrSpace ·) && (parse parseHost none url).isSome &&
  match splitScheme url with
  | some (scheme, '/' :: '/' :: _) => http scheme
  | _ => false

def allowedSite (cfg : OAuthConfig) (url : Record) : Bool :=
 url.host.any (fun host => lower host = localhost) ||
  (configured cfg).any fun allowed => parse parseHost none allowed = some url

def plain (request : Text) : Bool :=
 match splitScheme (request.dropWhile c0OrSpace) with
 | some (scheme, '/' :: '/' :: rest) =>
  scheme ≠ file ∧ (special scheme → '\\' ∉ rest.takeWhile (!ends false ·))
 | _ => false

def leadsToAllowed (cfg : OAuthConfig) (base : Record) : Form → Bool
 | .site scheme text => (site parseHost scheme text).all (allowedSite parseHost cfg)
 | .base => allowedSite parseHost cfg base
 | .file text => (fileHostEnd parseHost (text.takeWhile (!ends true ·))).isNone
 | .hostless _ => false

def harmless (cfg : OAuthConfig) (base : Record) (request : Text) : Bool :=
 !request.all headerChar || (configured cfg).any (extendsUrl request) || plain request ||
  leadsToAllowed parseHost cfg base (form base (start request))

section Location

variable {parseHost : HostParser} {cfg : OAuthConfig} {base : Record} {request token : Text}

theorem special_of_http {scheme : Text} (h : http scheme = true) : special scheme = true ∧ scheme ≠ file := by
 simp only [http, decide_eq_true_eq] at h
 rcases h with rfl | rfl <;> decide

theorem hexDigit_visible : ∀ n < 16, c0OrSpace (hexDigit n) = false ∧ headerChar (hexDigit n) = true := by
 decide

theorem percentByte_visible (b : UInt8) : ∀ c ∈ percentByte b, c0OrSpace c = false ∧ headerChar c = true := by
 have hb := b.toNat_lt
 simp only [percentByte, mem_cons, not_mem_nil, or_false]
 rintro c (rfl | rfl | rfl)
 · decide
 · exact hexDigit_visible _ (by omega)
 · exact hexDigit_visible _ (by omega)

theorem unreserved_visible {c : Char} (h : unreserved c = true) : c0OrSpace c = false ∧ headerChar c = true := by
 have hspace : ' '.toNat < c.toNat := by
  rcases of_decide_eq_true h with h | rfl | rfl | rfl | rfl
  · rcases Bool.or_eq_true_iff.mp h with h | h
    · rcases Bool.or_eq_true_iff.mp h with h | h
      · exact Nat.lt_of_lt_of_le (by decide) (of_decide_eq_true h).1
      · exact Nat.lt_of_lt_of_le (by decide) (of_decide_eq_true (Bool.and_eq_true_iff.mp h).1)
    · exact Nat.lt_of_lt_of_le (by decide) (of_decide_eq_true (Bool.and_eq_true_iff.mp h).1)
  all_goals decide
 have hdel : c ≠ '\x7f' := by
  rintro rfl
  cases h
 simp only [c0OrSpace, headerChar, Char.le_def, UInt32.le_iff_toNat_le, decide_eq_false_iff_not, decide_eq_true_eq]
 exact ⟨Nat.not_le_of_lt hspace, .inr ⟨Nat.le_of_lt hspace, hdel⟩⟩

theorem urlencodingEncode_visible (token : Text) :
  ∀ c ∈ urlencodingEncode token, c0OrSpace c = false ∧ headerChar c = true := by
 intro c hc
 obtain ⟨d, -, hd⟩ := mem_flatMap.mp hc
 split at hd
 · rename_i hun
   obtain rfl := mem_singleton.mp hd
   exact unreserved_visible hun
 · obtain ⟨b, -, hb⟩ := mem_flatMap.mp hd
   exact percentByte_visible b c hb

theorem tokenPart_visible : ∀ c ∈ tokenPart request token, c0OrSpace c = false ∧ headerChar c = true := by
 intro c hc
 rcases mem_cons.mp hc with rfl | hc
 · split <;> decide
 rcases mem_append.mp hc with hc | hc
 · have htoken : ("token=".toList.all fun d => !c0OrSpace d && headerChar d) = true := by decide
   simpa using all_eq_true.mp htoken c hc
 · exact urlencodingEncode_visible token c hc

theorem redirectTo_location : redirectTo (location request token) =
  if request.all headerChar then .redirect (location request token) else .internalError := by
 have hpart : (tokenPart request token).all headerChar = true :=
  all_eq_true.mpr fun c hc => (tokenPart_visible c hc).2
 have hall : (location request token).all headerChar = request.all headerChar := by
  rw [location, all_append, hpart, Bool.and_true]
 rw [redirectTo, hall]

theorem mem_start_of_mem {c : Char} (h : c ∈ request) (hc : c0OrSpace c = false) : c ∈ start request := by
 rw [start, mem_filter]
 refine ⟨?_, by simp [not_tabOrNewline hc]⟩
 rw [← takeWhile_append_dropWhile (p := c0OrSpace) (l := request), mem_append] at h
 refine h.resolve_left ?_
 intro htake
 rw [mem_takeWhile_imp htake] at hc
 cases hc

theorem parse_location (token : Text) (hbase : http base.scheme = true)
  (hvisible : ∃ c ∈ request, c0OrSpace c = false) :
  parse parseHost (some base) (location request token) =
   (form base (start request)).record parseHost base := by
 obtain ⟨hspecial, hfile⟩ := special_of_http hbase
 have hclean : clean (location request token) = start request ++ tokenPart request token :=
  clean_append hvisible (fun c hc => (tokenPart_visible c hc).1) (cons_ne_nil _ _)
 rw [parse, hclean, machine_eq hspecial hfile]
 by_cases hfrag : '#' ∈ request
 · obtain ⟨x, y, hxy⟩ := append_of_mem (mem_start_of_mem hfrag (by decide))
   rw [hxy, append_assoc, cons_append, form_fragment, form_fragment]
 · rw [tokenPart, if_neg (by simpa using hfrag), form_fragment]

end Location

section Configured

variable {parseHost : HostParser} {cfg : OAuthConfig} {base : Record} {request allowed : Text}

theorem extendsUrl_eq_true (h : extendsUrl request allowed = true) :
  ∃ rest, request = allowed ++ rest ∧ ∀ c tail, rest = c :: tail → c = '/' ∨ c = '?' ∨ c = '#' := by
 unfold extendsUrl at h
 split at h
 · cases h
 · rename_i hpre
   exact ⟨[], (List.isPrefixOf?_eq_some_iff_append_eq.mp hpre).symm, nofun⟩
 rename_i c tail hpre
 refine ⟨c :: tail, (List.isPrefixOf?_eq_some_iff_append_eq.mp hpre).symm, ?_⟩
 rintro _ _ ⟨⟩
 exact of_decide_eq_true h

theorem absoluteHttp_spec (h : absoluteHttp parseHost allowed = true) :
  (∀ c ∈ allowed, c0OrSpace c = false) ∧ ∃ scheme rest, splitScheme allowed = some (scheme, '/' :: '/' :: rest) ∧
   special scheme = true ∧ scheme ≠ file ∧ ∃ url, parse parseHost none allowed = some url ∧
    site parseHost scheme (rest.dropWhile slash) = some url := by
 unfold absoluteHttp at h
 simp only [Bool.and_eq_true, List.all_eq_true, Bool.not_eq_true'] at h
 obtain ⟨⟨hvisible, hparse⟩, hscheme⟩ := h
 refine ⟨hvisible, ?_⟩
 split at hscheme
 · rename_i scheme rest hsplit
   have hspecial := special_of_http hscheme
   obtain ⟨url, hurl⟩ := isSome_iff_exists.mp hparse
   refine ⟨scheme, rest, hsplit, hspecial.1, hspecial.2, url, hurl, ?_⟩
   have hne : allowed ≠ [] := by
    rintro rfl
    cases hsplit
   rw [← hurl, parse, clean_of_visible hvisible hne, machine_absolute none hsplit hspecial.1 hspecial.2]
 · cases hscheme

theorem record_of_extends (hbase : http base.scheme = true) (hallowed : absoluteHttp parseHost allowed = true)
  (h : extendsUrl request allowed = true) :
  (form base (start request)).record parseHost base = parse parseHost none allowed := by
 obtain ⟨hvisible, scheme, rest, hsplit, hspecial, hfile, url, hurl, hsite⟩ := absoluteHttp_spec hallowed
 obtain ⟨more, rfl, hmore⟩ := extendsUrl_eq_true h
 have hne : allowed ≠ [] := by
  rintro rfl
  cases hsplit
 have hname : rest.dropWhile slash ≠ [] := by
  intro hnil
  simp [hnil, site, hostState, hostEnd, hspecial, afterAt] at hsite
 obtain ⟨hbspecial, hbfile⟩ := special_of_http hbase
 have hsplit' : ∀ z, splitScheme (allowed ++ z) = some (scheme, '/' :: '/' :: (rest ++ z)) :=
  splitScheme_append hsplit
 rw [← machine_eq hbspecial hbfile, start_of_plain hvisible hne, machine_absolute _ (hsplit' _) hspecial hfile,
  dropWhile_append, if_neg (by simpa using hname), hurl, ← hsite]
 rcases more with _ | ⟨c, tail⟩
 · simp
 have hc := hmore c tail rfl
 have hends : ends (special scheme) c = true := by
  simp only [ends, decide_eq_true_eq]
  rcases hc with hc | hc | hc <;> simp [hc]
 have hkept : tabOrNewline c = false := by
  rcases hc with rfl | rfl | rfl <;> rfl
 rw [filter_cons_of_pos (by simp [hkept]), site_append hends]

end Configured

section Plain

variable {parseHost : HostParser} {cfg : OAuthConfig} {base : Record} {request : Text}

structure HostLaws (parseHost : HostParser) : Prop where
 localhost : ∀ (isOpaque : Bool) (s : Text), lower s = localhost → ∃ host, parseHost isOpaque s = some host ∧
  lower host = localhost
 small : ∀ s host, parseHost false s = some host → lower host = host

theorem afterScheme_of_first {x : Text} (hx : ∀ c ∈ x, c ≠ ':') (y : Text) :
  afterScheme (x ++ ':' :: '/' :: '/' :: y) = some y := by
 induction x with
 | nil => rfl
 | cons c x ih =>
  have hc := hx c mem_cons_self
  rw [cons_append, afterScheme]
  · exact ih fun d hd => hx d (mem_cons_of_mem _ hd)
  · intro rest h
    exact absurd h hc

theorem urlHost_eq_some {host : Text} (h : urlHost request = some host) :
  ∃ rest, afterScheme request = some rest ∧ host ≠ [] ∧
   host = (afterAt (rest.takeWhile (!ends false ·))).takeWhile (· ≠ ':') := by
 obtain ⟨rest, hrest, h⟩ := bind_eq_some_iff.mp h
 simp only at h
 split at h
 · cases h
 · rename_i hne
   cases h
   exact ⟨rest, hrest, hne, rfl⟩

theorem notMem_of_localhost {host : Text} (h : lower host = localhost) :
  ∀ c ∈ host, c ∉ ['\t', '\n', '\r', ':', '[', ']', '/', '?', '#', '\\'] := by
 intro c hc hspecial
 have hnot : ['\t', '\n', '\r', ':', '[', ']', '/', '?', '#', '\\'].all (·.toLower ∉ localhost) = true := by decide
 exact of_decide_eq_true (all_eq_true.mp hnot c hspecial) (h ▸ mem_map_of_mem hc)

theorem filter_localhost {host : Text} (h : lower host = localhost) : host.filter (!tabOrNewline ·) = host := by
 rw [filter_eq_self]
 intro c hc
 have hc := notMem_of_localhost h c hc
 simp_all [tabOrNewline]

theorem not_ends_of_tabOrNewline (special : Bool) : ∀ c, (!tabOrNewline c) = false → (!ends special c) = true := by
 intro c hc
 simp only [tabOrNewline, Bool.not_eq_false', decide_eq_true_eq] at hc
 rcases hc with rfl | rfl | rfl <;> simp [ends]

theorem takeWhile_filter_of {p q : Char → Bool} (h : ∀ c, q c = false → p c = true) (s : Text) :
  (s.filter q).takeWhile p = (s.takeWhile p).filter q := by
 have hpq : (fun c => !q c || p c) = p := by
  funext c
  cases hq : q c with
  | false => simp [h c hq]
  | true => rfl
 rw [takeWhile_filter, hpq]

theorem afterAt_filter (s : Text) : afterAt (s.filter (!tabOrNewline ·)) = (afterAt s).filter (!tabOrNewline ·) := by
 have hat : ∀ c : Char, (!tabOrNewline c) = false → decide (c ≠ '@') = true := by
  intro c hc
  apply decide_eq_true
  rintro rfl
  cases hc
 unfold afterAt List.rtakeWhile
 rw [← filter_reverse, takeWhile_filter_of hat, filter_reverse]

theorem site_of_localhost {scheme text host : Text} (hparse : HostLaws parseHost)
  (hhost : host = (afterAt (text.takeWhile (!ends (special scheme) ·))).takeWhile (· ≠ ':'))
  (hlocal : lower host = localhost) {url : Record}
  (h : site parseHost scheme (text.filter (!tabOrNewline ·)) = some url) :
  ∃ host, url.host = some host ∧ lower host = localhost := by
 obtain ⟨host', hhost', hlocal'⟩ := hparse.localhost (!special scheme) host hlocal
 refine ⟨host', ?_, hlocal'⟩
 have hname : ∀ c ∈ host, c ≠ ':' ∧ c ≠ '[' ∧ c ≠ ']' ∧ ends (special scheme) c = false := by
  intro c hc
  have hc := notMem_of_localhost hlocal c hc
  simp_all [ends]
 have hvisible := filter_localhost hlocal
 have hne : host ≠ [] := by
  rintro rfl
  cases hlocal
 obtain ⟨port, hport, hcolon⟩ : ∃ port,
   afterAt ((text.filter (!tabOrNewline ·)).takeWhile (!ends (special scheme) ·)) = host ++ port ∧
    ∀ c tail, port = c :: tail → c = ':' := by
  rw [takeWhile_filter_of (not_ends_of_tabOrNewline _), afterAt_filter]
  generalize afterAt (text.takeWhile (!ends (special scheme) ·)) = hostPort at hhost
  have hsplit := takeWhile_append_dropWhile (p := (· ≠ ':')) (l := hostPort)
  rw [← hhost] at hsplit
  have hstop := List.head?_dropWhile_not (· ≠ ':') hostPort
  refine ⟨(hostPort.dropWhile (· ≠ ':')).filter (!tabOrNewline ·), ?_, ?_⟩
  · rw [← hvisible, ← filter_append, hsplit]
  rcases hd : hostPort.dropWhile (· ≠ ':') with _ | ⟨c, tail⟩
  · intro _ _ h
    cases h
  rw [hd] at hstop
  obtain rfl : c = ':' := by simpa using hstop
  rintro _ _ ⟨⟩
  rfl
 simp only [site, hport] at h
 rw [if_neg (by simp [hne]), hostState_name hname, nil_append] at h
 rcases port with _ | ⟨c, tail⟩
 · simp only [hostState, hostEnd, hne, and_false, if_false, hhost', map_some] at h
   exact Option.some.inj h ▸ rfl
 · obtain rfl := hcolon c tail rfl
   simp only [hostState, Bool.not_false, and_self, if_true, hne, if_false, hhost', bind_some] at h
   exact (portState_record h).2

theorem plain_eq_true (h : plain request = true) :
  ∃ scheme rest, splitScheme (request.dropWhile c0OrSpace) = some (scheme, '/' :: '/' :: rest) ∧ scheme ≠ file ∧
   (special scheme = true → '\\' ∉ rest.takeWhile (!ends false ·)) := by
 unfold plain at h
 split at h
 · rename_i scheme rest hsplit
   have h := of_decide_eq_true h
   exact ⟨scheme, rest, hsplit, h.1, h.2⟩
 · cases h

variable {rest : Text}

theorem split_of_plain {scheme : Text}
  (h : splitScheme (request.dropWhile c0OrSpace) = some (scheme, '/' :: '/' :: rest)) :
  afterScheme request = some rest ∧
   splitScheme (start request) = some (scheme, '/' :: '/' :: rest.filter (!tabOrNewline ·)) := by
 obtain ⟨c, name, hc, hname, hdrop, hscheme⟩ := splitScheme_eq_some.mp h
 constructor
 · have hsplit := takeWhile_append_dropWhile (p := c0OrSpace) (l := request)
   rw [hdrop, ← append_assoc] at hsplit
   rw [← hsplit]
   apply afterScheme_of_first
   intro d hd
   rintro rfl
   rcases mem_append.mp hd with hd | hd
   · cases mem_takeWhile_imp hd
   · cases hname _ hd
 · have hkept : (c :: name).filter (!tabOrNewline ·) = c :: name := by
    rw [filter_eq_self]
    intro d hd
    have hchar := hname d hd
    simp only [tabOrNewline, Bool.not_eq_true', decide_eq_false_iff_not]
    rintro (rfl | rfl | rfl) <;> cases hchar
   refine splitScheme_eq_some.mpr ⟨c, name, hc, hname, ?_, hscheme⟩
   rw [start, hdrop, filter_append, hkept]
   rfl

theorem takeWhile_ends_special (h : '\\' ∉ rest.takeWhile (!ends false ·)) :
  rest.takeWhile (!ends true ·) = rest.takeWhile (!ends false ·) := by
 induction rest with
 | nil => rfl
 | cons c rest ih =>
  by_cases hc : ends false c = true
  · have hc' : ends true c = true := by
     simp only [ends, decide_eq_true_eq] at hc ⊢
     tauto
    simp [hc, hc']
  simp only [takeWhile_cons, hc, Bool.not_false, if_true, mem_cons, not_or] at h
  have hc' : ends true c = false := by
   have hback : c ≠ '\\' := fun h' => h.1 h'.symm
   simpa [ends, hback] using hc
  simp [hc, hc', ih h.2]

theorem dropWhile_slash_of_localhost {host : Text} (hback : '\\' ∉ rest.takeWhile (!ends false ·))
  (hhost : host = (afterAt (rest.takeWhile (!ends false ·))).takeWhile (· ≠ ':'))
  (hlocal : lower host = localhost) :
  (rest.filter (!tabOrNewline ·)).dropWhile slash = rest.filter (!tabOrNewline ·) := by
 have hcut := takeWhile_filter_of (not_ends_of_tabOrNewline false) rest
 rcases hf : rest.filter (!tabOrNewline ·) with _ | ⟨c, tail⟩
 · rfl
 rw [hf] at hcut
 have hslash : slash c = false := by
  simp only [slash, decide_eq_false_iff_not, not_or]
  constructor
  · rintro rfl
    have hempty : (rest.takeWhile (!ends false ·)).filter (!tabOrNewline ·) = [] := by
     rw [← hcut]
     simp [ends]
    have hsub : ∀ d ∈ host, d ∈ (rest.takeWhile (!ends false ·)).filter (!tabOrNewline ·) := by
     intro d hd
     refine mem_filter.mpr ⟨?_, ?_⟩
     · rw [hhost] at hd
       exact (rtakeWhile_suffix _ _).subset ((takeWhile_sublist _).subset hd)
     · rw [← filter_localhost hlocal] at hd
       exact (mem_filter.mp hd).2
    rw [hempty] at hsub
    obtain rfl := eq_nil_iff_forall_not_mem.mpr fun d hd => not_mem_nil (hsub d hd)
    cases hlocal
  · rintro rfl
    apply hback
    have hmem : '\\' ∈ (rest.takeWhile (!ends false ·)).filter (!tabOrNewline ·) := by
     rw [← hcut]
     simp [ends]
    exact (mem_filter.mp hmem).1
 simp [hslash]

theorem localhost_of_plain {host : Text} {url : Record} (hparse : HostLaws parseHost)
  (hplain : plain request = true) (hhost : urlHost request = some host) (hlocal : lower host = localhost)
  (h : (form base (start request)).record parseHost base = some url) :
  ∃ host, url.host = some host ∧ lower host = localhost := by
 obtain ⟨scheme, rest, hsplit, hfile, hback⟩ := plain_eq_true hplain
 obtain ⟨hafter, hstart⟩ := split_of_plain hsplit
 obtain ⟨rest', hrest', -, hname⟩ := urlHost_eq_some hhost
 obtain rfl : rest' = rest := Option.some.inj (hrest'.symm.trans hafter)
 have hsite : site parseHost scheme (rest'.filter (!tabOrNewline ·)) = some url := by
  rw [form, hstart] at h
  simp only [if_neg hfile] at h
  by_cases hs : special scheme = true
  · have hdrop := dropWhile_slash_of_localhost (hback hs) hname hlocal
    have hslashes : ('/' :: '/' :: rest'.filter (!tabOrNewline ·)).dropWhile slash =
      rest'.filter (!tabOrNewline ·) := by
     simpa [slash] using hdrop
    simp only [hs, if_true] at h
    split at h
    · rename_i hb
      have htwo : twoSlashes ('/' :: '/' :: rest'.filter (!tabOrNewline ·)) = true := rfl
      rw [relativeForm, if_pos htwo, hslashes, hb] at h
      exact h
    · rw [hslashes] at h
      exact h
  · simp only [hs, Bool.false_eq_true, if_false] at h
    exact h
 refine site_of_localhost hparse ?_ hlocal hsite
 cases hs : special scheme with
 | false => exact hname
 | true => rw [takeWhile_ends_special (hback hs), hname]

end Plain

section Token

variable {parseHost : HostParser} {cfg : OAuthConfig} {base : Record} {request : Text}

theorem isAllowedRedirect_iff : isAllowedRedirect cfg request = true ↔
  (∃ host, urlHost request = some host ∧ lower host = localhost) ∨
   ∃ allowed ∈ configured cfg, extendsUrl request allowed = true := by
 rw [isAllowedRedirect, Bool.or_eq_true, List.any_eq_true]
 cases urlHost request <;> simp

theorem mem_of_afterScheme {rest : Text} (h : afterScheme request = some rest) : ':' ∈ request := by
 fun_induction afterScheme request with
 | case1 => exact mem_cons_self
 | case2 c tail _ ih => exact mem_cons_of_mem _ (ih h)
 | case3 => cases h

theorem visible_of_extends {allowed : Text} (hallowed : absoluteHttp parseHost allowed = true)
  (h : extendsUrl request allowed = true) : ∃ c ∈ request, c0OrSpace c = false := by
 obtain ⟨hvisible, scheme, rest, hsplit, -⟩ := absoluteHttp_spec hallowed
 obtain ⟨more, rfl, -⟩ := extendsUrl_eq_true h
 match allowed, hsplit with
 | c :: _, _ => exact ⟨c, mem_cons_self, hvisible c mem_cons_self⟩

variable {url : Record} {provider : String} {state : StateToken}

theorem allowedSite_iff : allowedSite parseHost cfg url = true ↔
  (∃ host, url.host = some host ∧ lower host = localhost) ∨
   ∃ allowed ∈ configured cfg, parse parseHost none allowed = some url := by
 rw [allowedSite, Bool.or_eq_true, List.any_eq_true]
 cases url.host <;> simp

section Laws

variable (hparse : HostLaws parseHost) (hcfg : ∀ allowed ∈ configured cfg, absoluteHttp parseHost allowed = true)

include hcfg

theorem visible_of_allowed (h : isAllowedRedirect cfg request = true) : ∃ c ∈ request, c0OrSpace c = false := by
 rcases isAllowedRedirect_iff.mp h with ⟨host, hhost, -⟩ | ⟨allowed, hmem, hext⟩
 · obtain ⟨rest, hrest, -⟩ := urlHost_eq_some hhost
   exact ⟨':', mem_of_afterScheme hrest, by decide⟩
 · exact visible_of_extends (hcfg allowed hmem) hext

theorem not_configured_of_scheme (h : url.scheme = file ∨ url.host = none) :
  ∀ allowed ∈ configured cfg, parse parseHost none allowed ≠ some url := by
 intro allowed hmem heq
 obtain ⟨-, scheme, rest, -, -, hfile, url', hurl', hsite⟩ := absoluteHttp_spec (hcfg allowed hmem)
 obtain rfl : url' = url := Option.some.inj (hurl'.symm.trans heq)
 obtain ⟨hscheme, hhost⟩ := site_record hsite
 rcases h with h | h
 · exact hfile (hscheme.symm.trans h)
 · rw [h] at hhost
   cases hhost

include hparse

theorem not_allowed_file {text : Text} (h : fileHostEnd parseHost text = some url) :
  ¬ allowedSite parseHost cfg url = true := by
 have hurl : url.scheme = file ∧ ∀ host, url.host = some host → lower host ≠ localhost := by
  unfold fileHostEnd at h
  split at h
  · cases h
    refine ⟨rfl, ?_⟩
    rintro _ ⟨⟩
    decide
  obtain ⟨host, hhost, rfl⟩ := map_eq_some_iff.mp h
  refine ⟨rfl, ?_⟩
  rintro _ ⟨⟩
  split
  · decide
  · rename_i hne
    rw [hparse.small text host hhost]
    exact hne
 rw [allowedSite_iff]
 rintro (⟨host, hhost, hlocal⟩ | ⟨allowed, hmem, heq⟩)
 · exact hurl.2 host hhost hlocal
 · exact not_configured_of_scheme hcfg (.inl hurl.1) allowed hmem heq

theorem record_allowed_iff (f : Form) :
  (∀ url, f.record parseHost base = some url → allowedSite parseHost cfg url = true) ↔
   leadsToAllowed parseHost cfg base f = true := by
 cases f with
 | site scheme text =>
  simp only [Form.record, leadsToAllowed]
  cases site parseHost scheme text <;> simp
 | base =>
  simp [Form.record, leadsToAllowed]
 | file text =>
  simp only [Form.record, leadsToAllowed]
  constructor
  · intro h
    cases hrec : fileHostEnd parseHost (text.takeWhile (!ends true ·)) with
    | none => rfl
    | some url => exact absurd (h url hrec) (not_allowed_file hparse hcfg hrec)
  · intro h url hurl
    rw [hurl] at h
    cases h
 | hostless scheme =>
  simp only [Form.record, leadsToAllowed, Bool.false_eq_true, iff_false]
  intro h
  rcases allowedSite_iff.mp (h _ rfl) with ⟨host, hhost, -⟩ | ⟨allowed, hmem, heq⟩
  · cases hhost
  · exact not_configured_of_scheme hcfg (.inr rfl) allowed hmem heq

theorem form_allowed_iff (hbase : http base.scheme = true) (hallowed : isAllowedRedirect cfg request = true)
  (hheader : request.all headerChar = true) :
  (∀ url, (form base (start request)).record parseHost base = some url → allowedSite parseHost cfg url = true) ↔
   harmless parseHost cfg base request = true := by
 simp only [harmless, hheader, Bool.not_true, Bool.false_or, Bool.or_eq_true]
 constructor
 · intro h
   exact .inr ((record_allowed_iff hparse hcfg _).mp h)
 rintro ((h | h) | h)
 · obtain ⟨allowed, hmem, hext⟩ := any_eq_true.mp h
   intro url hurl
   rw [record_of_extends hbase (hcfg allowed hmem) hext] at hurl
   exact allowedSite_iff.mpr (.inr ⟨allowed, hmem, hurl⟩)
 · rcases isAllowedRedirect_iff.mp hallowed with ⟨host, hhost, hlocal⟩ | ⟨allowed, hmem, hext⟩
   · intro url hurl
     exact allowedSite_iff.mpr (.inl (localhost_of_plain hparse h hhost hlocal hurl))
   · intro url hurl
     rw [record_of_extends hbase (hcfg allowed hmem) hext] at hurl
     exact allowedSite_iff.mpr (.inr ⟨allowed, hmem, hurl⟩)
 · exact (record_allowed_iff hparse hcfg _).mpr h

end Laws

theorem v1OauthLogin_eq_ok {redirect : Option Text}
  (h : v1OauthLogin (some cfg) provider redirect = .ok state) :
  resolveProvider (some cfg) provider = .ok cfg ∧ (∀ r, redirect = some r → isAllowedRedirect cfg r = true) ∧
   state = { provider, redirect } := by
 obtain ⟨cfg', hcfg', hrest⟩ := bind_eq_ok.mp h
 obtain ⟨⟨⟩, hallowed, hstate⟩ := bind_eq_ok.mp hrest
 have hsame : cfg' = cfg := by
  obtain ⟨c, hc, htag⟩ := bind_eq_ok.mp hcfg'
  obtain ⟨-, -, hret⟩ := bind_eq_ok.mp htag
  cases hc
  cases hret
  rfl
 subst hsame
 refine ⟨hcfg', ?_, ?_⟩
 · rintro r rfl
   simpa using ensure_eq_ok.mp hallowed
 · cases hstate
   rfl

theorem handleCallback_redirect {q : CallbackParams} {session : Except String Text} {loc : Text}
  (hresolve : resolveProvider (some cfg) provider = .ok cfg) (hq : q.state = some state)
  (h : handleCallback (some cfg) provider q session = .ok (.redirect loc)) :
  ∃ r token, state.redirect.or cfg.successRedirect = some r ∧ r.all headerChar = true ∧
   loc = location r token := by
 obtain ⟨-, -, h⟩ := bind_eq_ok.mp h
 obtain ⟨-, -, h⟩ := bind_eq_ok.mp h
 obtain ⟨state', hstate', h⟩ := bind_eq_ok.mp h
 obtain ⟨-, -, h⟩ := bind_eq_ok.mp h
 obtain ⟨cfg', hcfg', h⟩ := bind_eq_ok.mp h
 obtain ⟨token, -, h⟩ := bind_eq_ok.mp h
 rw [hresolve] at hcfg'
 rw [hq] at hstate'
 cases hcfg'
 cases hstate'
 split at h
 · rename_i r hr
   refine ⟨r, token, hr, ?_⟩
   rw [redirectTo_location] at h
   split at h
   · rename_i hheader
     cases h
     exact ⟨hheader, rfl⟩
   · cases h
 · cases h

theorem handleCallback_confirmed {r token : Text}
  (hresolve : resolveProvider (some cfg) provider = .ok cfg) (hprovider : state.provider = provider)
  (hr : state.redirect.or cfg.successRedirect = some r) (hheader : r.all headerChar = true) :
  handleCallback (some cfg) provider { code := some "", state := some state } (.ok token) =
   .ok (.redirect (location r token)) := by
 have hto : redirectTo (location r token) = .redirect (location r token) := by
  rw [redirectTo_location, if_pos hheader]
 simp [handleCallback, ensure, ofOption, hprovider, hresolve, hr, hto, bind, Except.bind, pure, Except.pure]

/-- The page that gets the token is on localhost or on a configured site, if and only if the login link names none or
a harmless one. -/
theorem token_stays_iff {provider : String} {redirect : Option Text} {state : StateToken}
  (hparse : HostLaws parseHost) (hcfg : ∀ allowed ∈ configured cfg, absoluteHttp parseHost allowed = true)
  (hbase : http base.scheme = true) (hlogin : v1OauthLogin (some cfg) provider redirect = .ok state) :
  (∀ q session loc url, q.state = some state →
   handleCallback (some cfg) provider q session = .ok (.redirect loc) →
   parse parseHost (some base) loc = some url → allowedSite parseHost cfg url = true) ↔
  ∀ r, redirect = some r → harmless parseHost cfg base r = true := by
 obtain ⟨hresolve, hallowed, rfl⟩ := v1OauthLogin_eq_ok hlogin
 constructor
 · rintro h r rfl
   by_cases hheader : r.all headerChar = true
   · rw [← form_allowed_iff hparse hcfg hbase (hallowed r rfl) hheader]
     intro url hurl
     rw [← parse_location [] hbase (visible_of_allowed hcfg (hallowed r rfl))] at hurl
     exact h _ _ _ url rfl (handleCallback_confirmed hresolve rfl rfl hheader) hurl
   · simp [harmless, hheader]
 · intro h q session loc url hq hcall hurl
   obtain ⟨r, token, hr, hheader, rfl⟩ := handleCallback_redirect hresolve hq hcall
   rcases redirect with _ | r'
   · have hmem : r ∈ configured cfg := by
      simp only [none_or] at hr
      simp [configured, hr]
     have hext : extendsUrl r r = true := by
      rw [extendsUrl, List.isPrefixOf?_eq_some_iff_append_eq.mpr (append_nil r)]
     rw [parse_location token hbase (visible_of_extends (hcfg r hmem) hext),
      record_of_extends hbase (hcfg r hmem) hext] at hurl
     exact allowedSite_iff.mpr (.inr ⟨r, hmem, hurl⟩)
   · obtain rfl : r' = r := by simpa using hr
     rw [parse_location token hbase (visible_of_allowed hcfg (hallowed r' rfl))] at hurl
     exact (form_allowed_iff hparse hcfg hbase (hallowed r' rfl) hheader).mpr (h r' rfl) url hurl

end Token

private def plainNames (isOpaque : Bool) (s : Text) : Option Text :=
 let name := lower s
 if name.all (fun c => c.isLower ∨ c.isDigit ∨ c = '-' ∨ c = '.') then some (if isOpaque then s else name) else none

private def shopConfig : OAuthConfig where
 successRedirect := some "https://lnvps.net/login".toList
 allowedRedirects := ["https://app.lnvps.net".toList]
 providers := ["github"]

private def apiUrl : Record := { scheme := "https".toList, host := some "api.lnvps.net".toList }

private theorem toLower_of_plain {c : Char} (h : c.isLower ∨ c.isDigit ∨ c = '-' ∨ c = '.') : c.toLower = c := by
 have hnot : ¬ ('A'.val ≤ c.val ∧ c.val ≤ 'Z'.val) := by
  rintro ⟨hA, hZ⟩
  rcases h with h | h | rfl | rfl
  · exact absurd (UInt32.le_trans (of_decide_eq_true (Bool.and_eq_true_iff.mp h).1) hZ) (by decide)
  · exact absurd (UInt32.le_trans hA (of_decide_eq_true (Bool.and_eq_true_iff.mp h).2)) (by decide)
  · exact absurd hA (by decide)
  · exact absurd hA (by decide)
 exact dif_neg hnot

private theorem plainNames_laws : HostLaws plainNames := by
 constructor
 · intro isOpaque s hs
   refine ⟨if isOpaque then s else localhost, ?_, ?_⟩
   · simp only [plainNames, hs]
     exact if_pos (by decide)
   · cases isOpaque with
     | false => exact (by decide : lower localhost = localhost)
     | true => exact hs
 · intro s host h
   simp only [plainNames] at h
   split at h
   · cases h
     rename_i hplain
     refine (List.map_congr_left fun c hc => ?_).trans (map_id _)
     exact toLower_of_plain (of_decide_eq_true (all_eq_true.mp hplain c hc))
   · cases h

/-- A page on localhost with a user name is harmless. -/
theorem token_stays_iff_plain : ∃ state,
  v1OauthLogin (some shopConfig) "github" (some "http://me@LOCALHOST:3000/".toList) = .ok state ∧
  ∀ q session loc url, q.state = some state →
   handleCallback (some shopConfig) "github" q session = .ok (.redirect loc) →
   parse plainNames (some apiUrl) loc = some url → allowedSite plainNames shopConfig url = true := by
 have hlogin : v1OauthLogin (some shopConfig) "github" (some "http://me@LOCALHOST:3000/".toList) =
   .ok { provider := "github", redirect := some "http://me@LOCALHOST:3000/".toList } := by
  decide +kernel
 refine ⟨_, hlogin, (token_stays_iff plainNames_laws ?_ (by decide) hlogin).mpr ?_⟩
 · decide +kernel
 · rintro _ ⟨⟩
   decide +kernel

/-- The name localhost stands behind the site that the browser goes to. -/
theorem token_sent_away : ∃ state,
  v1OauthLogin (some shopConfig) "github" (some "//evil.com/://localhost".toList) = .ok state ∧
  ∃ q session loc url, q.state = some state ∧
   handleCallback (some shopConfig) "github" q session = .ok (.redirect loc) ∧
   parse plainNames (some apiUrl) loc = some url ∧ url.host = some "evil.com".toList ∧
   allowedSite plainNames shopConfig url = false := by
 refine ⟨_, rfl, { code := some "", state := some _ }, .ok "jwt".toList, _, _, rfl, rfl, rfl, ?_⟩
 decide +kernel

end OAuth

end Lnvps
