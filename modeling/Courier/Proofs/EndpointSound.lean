import Courier.Endpoint
import Courier.Proofs.ListLemmas
import Mathlib.Data.List.Basic
import Mathlib.Data.List.Induction

/-!
# Which addresses lead to a gateway

An address of parts names a kind of host and the host, and then in any order and
as often as it likes ports, the security layer and schemes. It leads to a gateway
if it names a scheme; the last scheme and the last port count
(`ofPath_eq_some_iff`). The documented form has a host that is not empty, at most
one port, at most one security layer and the scheme at its end. Addresses of
that form are read as documented, and what is read besides has another form
(`reads_documented_iff`).
-/

namespace Courier.Endpoint

/-! ## Addresses of parts -/

/-- A port as it is written: the digits of a number of 16 bits, perhaps after a plus sign. -/
structure Port where
  signed : Bool
  digits : List Char
  nonempty : digits ≠ []
  decimal : ∀ c ∈ digits, c.isDigit = true
  bounded : Nat.ofDigitChars 10 digits 0 < 65536

def Port.text (p : Port) : List Char := if p.signed then '+' :: p.digits else p.digits

def Port.number (p : Port) : Nat := Nat.ofDigitChars 10 p.digits 0

inductive Kind where
  | ip4
  | ip6
  | dns
  | dns4
  | dns6
  deriving DecidableEq

def Kind.name : Kind → List Char
  | .ip4 => "ip4".toList
  | .ip6 => "ip6".toList
  | .dns => "dns".toList
  | .dns4 => "dns4".toList
  | .dns6 => "dns6".toList

inductive Part where
  | port (p : Port)
  | secure
  | scheme (s : Url.Scheme)

def Part.words : Part → List (List Char)
  | .port p => ["tcp".toList, p.text]
  | .secure => ["tls".toList]
  | .scheme s => [s.text.toList]

structure Path where
  kind : Kind
  host : List Char
  unslashed : '/' ∉ host
  parts : List Part

def Path.words (p : Path) : List (List Char) := p.kind.name :: p.host :: p.parts.flatMap Part.words

def Path.text (p : Path) : List Char := p.words.flatMap ('/' :: ·)

/-! ## What they lead to -/

/-- The last scheme counts, and it is the secure one after a security layer. -/
def Speaks (parts : List Part) (s : Url.Scheme) : Prop :=
  ∃ a t b, parts = a ++ .scheme t :: b ∧ (∀ x, Part.scheme x ∉ b) ∧
    (s = .https ↔ t = .https ∨ .secure ∈ a)

def Part.number? : Part → Option Nat
  | .port p => some p.number
  | _ => none

def lastPort? (parts : List Part) : Option Nat := parts.reverse.findSome? Part.number?

/-- A host as an endpoint writes it, one of the kind `ip6` in brackets. -/
def site (kind : Kind) (host : List Char) : String :=
  if kind = .ip6 then "[" ++ String.ofList host ++ "]" else String.ofList host

/-- Scheme, host and port, if any, as an endpoint writes them. -/
def write (s : Url.Scheme) (host : String) : Option Nat → String
  | some n => s.text ++ "://" ++ host ++ ":" ++ Nat.repr n
  | none => s.text ++ "://" ++ host

def Path.endpoint (p : Path) (s : Url.Scheme) : String :=
  write s (site p.kind p.host) (lastPort? p.parts)

/-! ## Ports -/

theorem ne_plus_of_isDigit {c : Char} (h : c.isDigit = true) : c ≠ '+' := by
  intro hc
  rw [hc] at h
  cases h

theorem port?_eq_some_iff {t : List Char} {n : Nat} :
    port? t = some n ↔ ∃ p : Port, p.text = t ∧ p.number = n := by
  constructor
  · intro h
    unfold port? at h
    split at h
    · cases h
    · cases h
    · next r hr =>
      obtain ⟨hdecimal, hn, hlt⟩ := (Digits.read?_eq_some_iff (by decide)).mp h
      exact ⟨⟨true, r, hr, hdecimal, hn ▸ hlt⟩, rfl, hn⟩
    · next r hr _ _ =>
      obtain ⟨hdecimal, hn, hlt⟩ := (Digits.read?_eq_some_iff (by decide)).mp h
      exact ⟨⟨false, t, hr, hdecimal, hn ▸ hlt⟩, rfl, hn⟩
  · rintro ⟨⟨signed, digits, hne, hdecimal, hlt⟩, rfl, rfl⟩
    have hread : Digits.read? 65536 0 digits = some (Nat.ofDigitChars 10 digits 0) :=
      (Digits.read?_eq_some_iff (by decide)).mpr ⟨hdecimal, rfl, hlt⟩
    obtain ⟨c, r, rfl⟩ := List.exists_cons_of_ne_nil hne
    cases signed with
    | true => exact hread
    | false =>
      have hc := ne_plus_of_isDigit (hdecimal c List.mem_cons_self)
      change port? (c :: r) = _
      unfold port?
      split
      · next h => cases h
      · next h => exact absurd (List.cons.inj h).1 hc
      · next h => exact absurd (List.cons.inj h).1 hc
      · exact hread

theorem Port.unslashed (p : Port) : '/' ∉ p.text := by
  intro h
  have hdigits : '/' ∈ p.digits := by
    unfold text at h
    split at h
    · exact (List.mem_cons.mp h).resolve_left (by decide)
    · exact h
  exact absurd (p.decimal _ hdigits) (by decide)

theorem Port.text_injective {p q : Port} (h : p.text = q.text) : p = q := by
  -- no digits begin like a signed port
  have hplus : ∀ p q : Port, p.digits ≠ '+' :: q.digits := by
    intro p q h
    exact ne_plus_of_isDigit (p.decimal '+' (h ▸ List.mem_cons_self)) rfl
  obtain ⟨hpq, hqp⟩ := And.intro (hplus p q) (hplus q p)
  obtain ⟨signed, digits, _, _, _⟩ := p
  obtain ⟨signed', digits', _, _, _⟩ := q
  cases signed <;> cases signed' <;> simp_all [text]

/-! ## Parts -/

def Parts.take (s : Parts) : Part → Parts
  | .port p => { s with port := some p.number }
  | .secure => { s with secure := true }
  | .scheme t => { s with scheme := some (if s.secure then .https else t) }

theorem Parts.take_https (s : Parts) : s.take (.scheme .https) = { s with scheme := some .https } := by
  simp [take]

theorem readParts_part (s : Parts) (x : Part) (ws : List (List Char)) :
    readParts s (x.words ++ ws) = readParts (s.take x) ws := by
  cases x with
  | port p =>
    have hp : port? p.text = some p.number := port?_eq_some_iff.mpr ⟨p, rfl, rfl⟩
    change readParts s ("tcp".toList :: p.text :: ws) = _
    rw [readParts.eq_def]
    simp only [if_true, hp]
    rfl
  | secure =>
    change readParts s ("tls".toList :: ws) = _
    rw [readParts.eq_def]
    dsimp only
    rw [if_neg (by decide), if_pos rfl]
    rfl
  | scheme t =>
    cases t with
    | http =>
      change readParts s ("http".toList :: ws) = _
      rw [readParts.eq_def]
      dsimp only
      rw [if_neg (by decide), if_neg (by decide), if_pos rfl]
      rfl
    | https =>
      change readParts s ("https".toList :: ws) = _
      rw [readParts.eq_def]
      dsimp only
      rw [if_neg (by decide), if_neg (by decide), if_neg (by decide), if_pos rfl, Parts.take_https]

theorem readParts_eq_some_iff {s s' : Parts} {ws : List (List Char)} :
    readParts s ws = some s' ↔
      ∃ parts : List Part, parts.flatMap Part.words = ws ∧ parts.foldl Parts.take s = s' := by
  constructor
  · intro h
    -- what a part leaves is read as other parts, so the whole is read as that part and those
    have cons {s : Parts} {ws : List (List Char)} (x : Part) :
        (∃ parts : List Part, parts.flatMap Part.words = ws ∧ parts.foldl Parts.take (s.take x) = s') →
          ∃ parts : List Part, parts.flatMap Part.words = x.words ++ ws ∧ parts.foldl Parts.take s = s' := by
      rintro ⟨parts, rfl, rfl⟩
      exact ⟨x :: parts, List.flatMap_cons, List.foldl_cons ..⟩
    fun_induction readParts s ws with
    | case1 => exact ⟨[], rfl, Option.some.inj h⟩
    | case2 => cases h
    | case3 => cases h
    | case4 s p r n hp ih =>
      obtain ⟨port, rfl, rfl⟩ := port?_eq_some_iff.mp hp
      exact cons (.port port) (ih h)
    | case5 s r _ ih => exact cons .secure (ih h)
    | case6 s r _ _ ih => exact cons (.scheme .http) (ih h)
    | case7 s r _ _ _ ih =>
      refine cons (.scheme .https) ?_
      rw [Parts.take_https]
      exact ih h
    | case8 => cases h
  · rintro ⟨parts, rfl, rfl⟩
    induction parts generalizing s with
    | nil => rfl
    | cons x parts ih =>
      rw [List.flatMap_cons, readParts_part, List.foldl_cons]
      exact ih

/-- The first word tells what part it is, and a port what follows that. -/
theorem Part.words_append {x y : Part} {ws vs : List (List Char)} (h : x.words ++ ws = y.words ++ vs) :
    x = y ∧ ws = vs := by
  rcases x with p | _ | _ | _ <;> rcases y with q | _ | _ | _ <;>
    try exact absurd (List.cons.inj h).1 (by decide)
  · have h := List.cons.inj (List.cons.inj h).2
    rw [Port.text_injective h.1]
    exact ⟨rfl, h.2⟩
  · exact ⟨rfl, (List.cons.inj h).2⟩
  · exact ⟨rfl, (List.cons.inj h).2⟩
  · exact ⟨rfl, (List.cons.inj h).2⟩

theorem Part.words_ne_nil (x : Part) (ws : List (List Char)) : x.words ++ ws ≠ [] := by
  cases x <;> nofun

theorem Part.flatMap_words_injective {xs ys : List Part} (h : xs.flatMap words = ys.flatMap words) :
    xs = ys := by
  induction xs generalizing ys with
  | nil =>
    cases ys with
    | nil => rfl
    | cons y ys => exact absurd h.symm (y.words_ne_nil _)
  | cons x xs ih =>
    cases ys with
    | nil => exact absurd h (x.words_ne_nil _)
    | cons y ys =>
      obtain ⟨rfl, hrest⟩ := words_append h
      rw [ih hrest]

theorem Part.unslashed {x : Part} {w : List Char} (hw : w ∈ x.words) : '/' ∉ w := by
  cases x with
  | port p =>
    rcases List.mem_cons.mp hw with rfl | hw
    · decide
    · rw [List.mem_singleton.mp hw]
      exact p.unslashed
  | secure =>
    rw [List.mem_singleton.mp hw]
    decide
  | scheme s =>
    rw [List.mem_singleton.mp hw]
    cases s <;> decide

/-! ## What was read last -/

theorem speaks_append_scheme {l : List Part} {t s : Url.Scheme} :
    Speaks (l ++ [.scheme t]) s ↔ (s = .https ↔ t = .https ∨ .secure ∈ l) := by
  constructor
  · rintro ⟨a, t', b, hl, hb, hs⟩
    rcases snoc_eq_append_cons hl with ⟨rfl, h, -⟩ | ⟨b', -, rfl⟩
    · cases h
      exact hs
    · exact absurd (List.mem_append_right _ (List.mem_singleton_self _)) (hb t)
  · intro hs
    exact ⟨l, t, [], rfl, fun _ => List.not_mem_nil, hs⟩

theorem speaks_append {l : List Part} {x : Part} (hx : ∀ t, x ≠ .scheme t) {s : Url.Scheme} :
    Speaks (l ++ [x]) s ↔ Speaks l s := by
  constructor
  · rintro ⟨a, t, b, hl, hb, hs⟩
    rcases snoc_eq_append_cons hl with ⟨-, h, -⟩ | ⟨b', rfl, rfl⟩
    · exact absurd h.symm (hx t)
    · exact ⟨a, t, b', rfl, fun y hy => hb y (List.mem_append_left _ hy), hs⟩
  · rintro ⟨a, t, b, rfl, hb, hs⟩
    refine ⟨a, t, b ++ [x], by simp, fun y hy => ?_, hs⟩
    rcases List.mem_append.mp hy with hy | hy
    · exact hb y hy
    · exact hx y (List.mem_singleton.mp hy).symm

theorem port_foldl (parts : List Part) : (parts.foldl Parts.take {}).port = lastPort? parts := by
  induction parts using List.reverseRecOn with
  | nil => rfl
  | append_singleton l x ih =>
    rw [List.foldl_append, lastPort?, List.reverse_append]
    cases x with
    | port p => rfl
    | secure => exact ih
    | scheme t => exact ih

theorem secure_foldl (parts : List Part) :
    (parts.foldl Parts.take {}).secure = true ↔ .secure ∈ parts := by
  induction parts using List.reverseRecOn with
  | nil => exact ⟨nofun, nofun⟩
  | append_singleton l x ih =>
    rw [List.foldl_append, List.mem_append, List.mem_singleton, ← ih]
    cases x <;> simp [Parts.take]

theorem scheme_foldl {parts : List Part} {s : Url.Scheme} :
    (parts.foldl Parts.take {}).scheme = some s ↔ Speaks parts s := by
  induction parts using List.reverseRecOn with
  | nil =>
    refine ⟨nofun, ?_⟩
    rintro ⟨a, t, b, h, -⟩
    cases a <;> cases h
  | append_singleton l x ih =>
    rw [List.foldl_append]
    cases x with
    | port p =>
      rw [speaks_append fun _ h => by cases h]
      exact ih
    | secure =>
      rw [speaks_append fun _ h => by cases h]
      exact ih
    | scheme t =>
      rw [speaks_append_scheme, ← secure_foldl]
      cases s <;> cases t <;> cases hs : (l.foldl Parts.take {}).secure <;> simp [Parts.take, hs]

/-! ## Addresses -/

theorem host?_eq_some_iff {k host : List Char} {h : String} :
    host? k host = some h ↔ ∃ kind : Kind, kind.name = k ∧ site kind host = h := by
  constructor
  · intro hh
    unfold host? at hh
    split at hh
    · next hk => exact ⟨.ip6, hk.symm, Option.some.inj hh⟩
    · split at hh
      · next hk =>
        have hh := Option.some.inj hh
        rcases hk with hk | hk | hk | hk
        · exact ⟨.ip4, hk.symm, hh⟩
        · exact ⟨.dns, hk.symm, hh⟩
        · exact ⟨.dns4, hk.symm, hh⟩
        · exact ⟨.dns6, hk.symm, hh⟩
      · cases hh
  · rintro ⟨kind, rfl, rfl⟩
    cases kind <;> rfl

theorem Kind.name_injective {k l : Kind} (h : k.name = l.name) : k = l := by
  cases k <;> cases l <;> first | rfl | exact absurd h (by decide)

theorem Kind.unslashed (k : Kind) : '/' ∉ k.name := by
  cases k <;> decide

theorem Path.unslashed_words (p : Path) : ∀ w ∈ p.words, '/' ∉ w := by
  intro w hw
  rcases List.mem_cons.mp hw with rfl | hw
  · exact p.kind.unslashed
  · rcases List.mem_cons.mp hw with rfl | hw
    · exact p.unslashed
    · obtain ⟨x, -, hx⟩ := List.mem_flatMap.mp hw
      exact x.unslashed hx

theorem Path.partsAt_text (p : Path) {r : List Char} (h : p.text = '/' :: r) :
    Split.partsAt (· = '/') r = p.words := by
  rw [Path.words, Split.partsAt_eq_cons_iff]
  refine ⟨?_, p.unslashed_words⟩
  rw [text, words, List.flatMap_cons, List.cons_append] at h
  exact (List.cons.inj h).2.symm

theorem Path.exists_text (p : Path) : ∃ r, p.text = '/' :: r := ⟨_, rfl⟩

theorem Path.text_injective {p q : Path} (h : p.text = q.text) : p = q := by
  obtain ⟨r, hr⟩ := p.exists_text
  have hw := (p.partsAt_text hr).symm.trans (q.partsAt_text (h.symm.trans hr))
  obtain ⟨k, host, _, xs⟩ := p
  obtain ⟨l, host', _, ys⟩ := q
  simp only [words, List.cons.injEq] at hw
  obtain ⟨hk, rfl, hparts⟩ := hw
  obtain rfl := Kind.name_injective hk
  obtain rfl := Part.flatMap_words_injective hparts
  rfl

/-- An address of parts leads to a gateway if it names a scheme, and then to what it says last. -/
theorem ofPath_eq_some_iff {cs : List Char} {r : String} :
    ofPath cs = some r ↔ ∃ p : Path, p.text = cs ∧ ∃ s, Speaks p.parts s ∧ p.endpoint s = r := by
  constructor
  · intro h
    unfold ofPath at h
    split at h
    · next cs =>
      split at h
      · next kind host ws hws =>
        obtain ⟨rfl, hslash⟩ := Split.partsAt_eq_cons_iff.mp hws
        simp only [Option.bind_eq_bind, Option.bind_eq_some_iff] at h
        obtain ⟨t, ht, state, hstate, s, hs, hr⟩ := h
        obtain ⟨k, rfl, rfl⟩ := host?_eq_some_iff.mp ht
        obtain ⟨parts, rfl, rfl⟩ := readParts_eq_some_iff.mp hstate
        refine ⟨⟨k, host, hslash host (by simp), parts⟩, rfl, s, scheme_foldl.mp hs, ?_⟩
        rw [port_foldl] at hr
        unfold Path.endpoint
        cases hport : lastPort? parts with
        | none =>
          rw [hport] at hr
          exact Option.some.inj hr
        | some n =>
          rw [hport] at hr
          exact Option.some.inj hr
      · cases h
    · cases h
  · rintro ⟨p, rfl, s, hs, rfl⟩
    obtain ⟨r, hr⟩ := p.exists_text
    have hparts : readParts {} (p.parts.flatMap Part.words) = some (p.parts.foldl Parts.take {}) :=
      readParts_eq_some_iff.mpr ⟨_, rfl, rfl⟩
    have hhost : host? p.kind.name p.host = some (site p.kind p.host) :=
      host?_eq_some_iff.mpr ⟨_, rfl, rfl⟩
    rw [hr]
    unfold ofPath Path.endpoint
    simp only [p.partsAt_text hr, Path.words, hhost, hparts, scheme_foldl.mpr hs, port_foldl,
      Option.bind_eq_bind, Option.bind_some]
    cases lastPort? p.parts with
    | none => rfl
    | some n => rfl

/-! ## The documented form -/

/-- A web address, and what is left of it without the slashes at its end. -/
structure Web (addr r : String) : Prop where
  begins : "http://".toList <+: addr.toList ∨ "https://".toList <+: addr.toList
  unslashed : r.toList.getLast? ≠ some '/'
  slashes : ∃ k, addr.toList = r.toList ++ List.replicate k '/'

/-- A host that is not empty, and then a port if any, the security layer if any and a scheme. -/
structure Form where
  kind : Kind
  host : List Char
  unslashed : '/' ∉ host
  named : host ≠ []
  port : Option Port
  secure : Bool
  scheme : Url.Scheme

def Form.path (f : Form) : Path where
  kind := f.kind
  host := f.host
  unslashed := f.unslashed
  parts := f.port.toList.map .port ++ (if f.secure then [.secure] else []) ++ [.scheme f.scheme]

def Form.endpoint (f : Form) : String :=
  write (if f.secure then .https else f.scheme) (site f.kind f.host) (f.port.map Port.number)

/-- An address in the documented form, and what it is documented to lead to. -/
def Documented (addr r : String) : Prop :=
  Web addr r ∨ ∃ f : Form, f.path.text = addr.toList ∧ f.endpoint = r

/-! ## Slashes at the end -/

theorem dropTrailingSlashes_eq_iff {cs t : List Char} :
    dropTrailingSlashes cs = t ↔ t.getLast? ≠ some '/' ∧ ∃ k, cs = t ++ List.replicate k '/' := by
  unfold dropTrailingSlashes
  constructor
  · rintro rfl
    constructor
    · rw [List.getLast?_reverse]
      intro h
      have hhead := List.head?_dropWhile_not (fun c => decide (c = '/')) cs.reverse
      rw [h] at hhead
      cases hhead
    · have hall : ∀ c ∈ cs.reverse.takeWhile (· = '/'), c = '/' := by
        intro c hc
        simpa using List.all_eq_true.mp List.all_takeWhile c hc
      refine ⟨(cs.reverse.takeWhile (· = '/')).length, ?_⟩
      rw [← List.reverse_inj, List.reverse_append, List.reverse_reverse, List.reverse_replicate,
        ← List.eq_replicate_of_mem hall, List.takeWhile_append_dropWhile]
  · rintro ⟨ht, k, rfl⟩
    rw [← List.reverse_inj, List.reverse_reverse, List.reverse_append, List.reverse_replicate,
      List.dropWhile_append_of_pos fun c hc => by simpa using List.eq_of_mem_replicate hc]
    cases hr : t.reverse with
    | nil => rfl
    | cons c r =>
      rw [List.getLast?_eq_head?_reverse, hr] at ht
      rw [List.dropWhile_cons_of_neg]
      intro hc
      exact ht (by simpa using hc)

theorem web_iff {addr r : String} :
    Web addr r ↔ ("http://".toList <+: addr.toList ∨ "https://".toList <+: addr.toList) ∧
      String.ofList (dropTrailingSlashes addr.toList) = r := by
  have heq : String.ofList (dropTrailingSlashes addr.toList) = r ↔
      dropTrailingSlashes addr.toList = r.toList := by
    rw [← String.toList_inj, String.toList_ofList]
  rw [heq, dropTrailingSlashes_eq_iff]
  exact ⟨fun h => ⟨h.begins, h.unslashed, h.slashes⟩, fun h => ⟨h.1, h.2.1, h.2.2⟩⟩

theorem write_unslashed {s : Url.Scheme} {host : String} {port : Option Nat} {c : Char}
    (hc : host.toList.getLast? = some c) (hne : c ≠ '/') :
    (write s host port).toList.getLast? ≠ some '/' := by
  cases port with
  | none =>
    rw [write, String.toList_append, List.getLast?_append, hc, Option.some_or, ne_eq, Option.some.injEq]
    exact hne
  | some n =>
    have hdigits : (Nat.repr n).toList = Nat.toDigits 10 n := by simp [Nat.repr]
    have hne : Nat.toDigits 10 n ≠ [] := Nat.toDigits_ne_nil
    rw [write, String.toList_append, hdigits, List.getLast?_append, List.getLast?_eq_some_getLast hne, Option.some_or]
    intro h
    have hmem := List.getLast_mem hne
    rw [Option.some.inj h] at hmem
    exact absurd (Nat.isDigit_of_mem_toDigits (by decide) (by decide) hmem) (by decide)

theorem Form.speaks_iff (f : Form) {s : Url.Scheme} :
    Speaks f.path.parts s ↔ s = if f.secure then .https else f.scheme := by
  have hmem : Part.secure ∈ f.port.toList.map Part.port ++ (if f.secure then [Part.secure] else []) ↔
      f.secure = true := by
    cases f.secure <;> simp
  rw [path, speaks_append_scheme, hmem]
  cases s <;> cases f.secure <;> cases f.scheme <;> simp

theorem Form.lastPort? (f : Form) : lastPort? f.path.parts = f.port.map Port.number := by
  cases hp : f.port <;> cases hs : f.secure <;> simp only [Endpoint.lastPort?, path, hp, hs] <;> rfl

theorem Form.endpoint_eq (f : Form) {s : Url.Scheme} (h : Speaks f.path.parts s) :
    f.path.endpoint s = f.endpoint := by
  rw [f.speaks_iff.mp h, Path.endpoint, f.lastPort?]
  rfl

theorem Form.endpoint_unslashed (f : Form) : f.endpoint.toList.getLast? ≠ some '/' := by
  unfold endpoint
  by_cases hk : f.kind = .ip6
  · refine write_unslashed (c := ']') ?_ (by decide)
    rw [site, if_pos hk, String.toList_append]
    exact List.getLast?_concat
  · refine write_unslashed (c := f.host.getLast f.named) ?_ ?_
    · rw [site, if_neg hk, String.toList_ofList]
      exact List.getLast?_eq_some_getLast f.named
    · intro h
      exact f.unslashed (h ▸ List.getLast_mem f.named)

/-! ## Reading an address -/

theorem Path.not_web {p : Path} {addr : String} (h : p.text = addr.toList) :
    ¬ ("http://".toList <+: addr.toList ∨ "https://".toList <+: addr.toList) := by
  obtain ⟨r, hr⟩ := p.exists_text
  rw [← h, hr]
  rintro (⟨t, ht⟩ | ⟨t, ht⟩)
  · exact absurd (List.cons.inj ht).1 (by decide)
  · exact absurd (List.cons.inj ht).1 (by decide)

theorem ofAddress_eq_some_iff {addr r : String} :
    ofAddress addr = some r ↔
      Web addr r ∨ ∃ p : Path, p.text = addr.toList ∧ ∃ s, Speaks p.parts s ∧ p.endpoint s = r := by
  have hor : ("http://".toList.isPrefixOf addr.toList || "https://".toList.isPrefixOf addr.toList) = true ↔
      "http://".toList <+: addr.toList ∨ "https://".toList <+: addr.toList := by
    rw [Bool.or_eq_true, List.isPrefixOf_iff_prefix, List.isPrefixOf_iff_prefix]
  by_cases hw : "http://".toList <+: addr.toList ∨ "https://".toList <+: addr.toList
  · have hread : ofAddress addr = some (String.ofList (dropTrailingSlashes addr.toList)) :=
      if_pos (hor.mpr hw)
    rw [hread, web_iff, and_iff_right hw, Option.some.injEq, iff_self_or]
    rintro ⟨p, hp, -⟩
    exact absurd hw (Path.not_web hp)
  · have hread : ofAddress addr = ofPath addr.toList := if_neg (mt hor.mp hw)
    rw [hread, ofPath_eq_some_iff, web_iff, or_iff_right fun h => hw h.1]

theorem Documented.read {addr r : String} (h : Documented addr r) :
    ofAddress addr = some r ∧ r.toList.getLast? ≠ some '/' := by
  rw [ofAddress_eq_some_iff]
  rcases h with h | ⟨f, hf, rfl⟩
  · exact ⟨.inl h, h.unslashed⟩
  · have hs := f.speaks_iff.mpr rfl
    exact ⟨.inr ⟨f.path, hf, _, hs, f.endpoint_eq hs⟩, f.endpoint_unslashed⟩

/-- An address in the documented form is read as documented, and what it leads to does not end in a
slash. Addresses of parts that name a scheme are read all the same, and what is read is what is
documented exactly for those addresses that are none of them or have the documented form. -/
theorem reads_documented_iff (addr : String) :
    (∀ r, Documented addr r → ofAddress addr = some r ∧ r.toList.getLast? ≠ some '/') ∧
    (∀ r, ofAddress addr = some r ↔
      Web addr r ∨ ∃ p : Path, p.text = addr.toList ∧ ∃ s, Speaks p.parts s ∧ p.endpoint s = r) ∧
    ((∀ r, ofAddress addr = some r ↔ Documented addr r) ↔
      ∀ p : Path, p.text = addr.toList → (∃ s, Speaks p.parts s) → ∃ f : Form, f.path = p) := by
  refine ⟨fun r h => h.read, fun r => ofAddress_eq_some_iff, ?_⟩
  constructor
  · rintro h p hp ⟨s, hs⟩
    rcases (h _).mp (ofAddress_eq_some_iff.mpr (.inr ⟨p, hp, s, hs, rfl⟩)) with hw | ⟨f, hf, -⟩
    · exact absurd hw.begins (Path.not_web hp)
    · exact ⟨f, Path.text_injective (hf.trans hp.symm)⟩
  · intro h r
    refine ⟨fun hr => ?_, fun hr => hr.read.1⟩
    rcases ofAddress_eq_some_iff.mp hr with hw | ⟨p, hp, s, hs, rfl⟩
    · exact .inl hw
    · obtain ⟨f, rfl⟩ := h p hp ⟨s, hs⟩
      exact .inr ⟨f, hp, (f.endpoint_eq hs).symm⟩

/-- Without a host the endpoint ends in a slash, and a security layer behind the scheme does not
count. -/
theorem reads_undocumented :
    ofAddress "/dns4//http" = some "http://" ∧ ofAddress "/dns4/h/http/tls" = some "http://h" ∧
      ∀ r, ¬ Documented "/dns4//http" r ∧ ¬ Documented "/dns4/h/http/tls" r := by
  let p : Path := ⟨.dns4, [], List.not_mem_nil, [.scheme .http]⟩
  let q : Path := ⟨.dns4, ['h'], by decide, [.scheme .http, .secure]⟩
  have hp : p.text = "/dns4//http".toList := by decide
  have hq : q.text = "/dns4/h/http/tls".toList := by decide
  refine ⟨?_, ?_, fun r => ⟨?_, ?_⟩⟩
  · refine ofAddress_eq_some_iff.mpr (.inr ⟨p, hp, .http, ⟨[], .http, [], rfl, nofun, ?_⟩, rfl⟩)
    simp
  · refine ofAddress_eq_some_iff.mpr (.inr ⟨q, hq, .http, ⟨[], .http, [.secure], rfl, ?_, ?_⟩, rfl⟩)
    · simp
    · simp
  · rintro (hw | ⟨f, hf, -⟩)
    · exact Path.not_web hp hw.begins
    · have hfp : f.path = p := Path.text_injective (hf.trans hp.symm)
      exact f.named (congrArg Path.host hfp)
  · rintro (hw | ⟨f, hf, -⟩)
    · exact Path.not_web hq hw.begins
    · -- the documented form ends with a scheme
      have hfq : f.path = q := Path.text_injective (hf.trans hq.symm)
      have hlast := congrArg (fun p : Path => p.parts.getLast?) hfq
      simp [Form.path, q] at hlast

end Courier.Endpoint
