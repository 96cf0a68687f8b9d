import Mathlib.Data.List.TakeWhile

/-!
# URIs and their queries

The generic syntax of RFC 3986 for a URI with a scheme, on texts of Unicode scalars. A host in
brackets (an IP literal) is left out.

A query is read as parameters: it is split at `&`, each part is cut at its first `=`, and both
sides are percent-decoded to octets, which are compared with the UTF-8 of a text.

* `Uri`: the parts of a URI, each well formed; `parse` reads them.
* `encoded`: a text of allowed characters and percent-encoded octets; `octets`: what it stands for.
* `length_octets`: a percent-encoded octet takes three characters, another character one.
* `parts_append_query`: what a query that is appended to a URI without one is read as.
* `plain_of_head`, `parameters_of_plain`: a value that is written into a query without encoding is
  read back iff it has only characters that stand for themselves there.
-/

namespace Uri

/-! ## Texts -/

/-- The text before the first `c`, and the text after it if there is one. -/
def cut (c : Char) (s : List Char) : List Char × Option (List Char) :=
  (s.takeWhile (· != c), (s.dropWhile (· != c)).tail?)

def isHexDigit (c : Char) : Bool :=
  c.isDigit || ('a' ≤ c && c ≤ 'f') || ('A' ≤ c && c ≤ 'F')

/-- The value of a hexadecimal digit. -/
def hexValue (c : Char) : Nat :=
  if c.isDigit then c.toNat - 48 else if 'a' ≤ c then c.toNat - 87 else c.toNat - 55

def unreserved (c : Char) : Bool := c.isAlphanum || "-._~".toList.contains c

def subDelim (c : Char) : Bool := "!$&'()*+,;=".toList.contains c

def pchar (c : Char) : Bool := unreserved c || subDelim c || c == ':' || c == '@'

/-- The characters of a query and of a fragment, but for percent-encoded octets. -/
def queryChar (c : Char) : Bool := pchar c || c == '/' || c == '?'

/-- The text has only characters that are `allowed` and percent-encoded octets. -/
def encoded (allowed : Char → Bool) : List Char → Bool
  | [] => true
  | '%' :: a :: b :: s => isHexDigit a && isHexDigit b && encoded allowed s
  | c :: s => c != '%' && allowed c && encoded allowed s

/-- The octets of a text: those that are percent-encoded in it, and the UTF-8 of the rest. -/
def octets : List Char → List UInt8
  | [] => []
  | '%' :: a :: b :: s => UInt8.ofNat (16 * hexValue a + hexValue b) :: octets s
  | c :: s => String.utf8EncodeChar c ++ octets s

/-- The UTF-8 of a text. -/
def utf8 (s : List Char) : List UInt8 := s.flatMap String.utf8EncodeChar

/-! ## URIs -/

/-- The parts of a URI. -/
structure Parts where
  scheme : List Char
  authority : Option (List Char)
  path : List Char
  query : Option (List Char)
  fragment : Option (List Char)
  deriving DecidableEq

/-- A scheme: a letter, and letters, digits, `+`, `-` and `.`. -/
def schemeOk : List Char → Bool
  | [] => false
  | c :: s => c.isAlpha && s.all fun c => c.isAlphanum || c == '+' || c == '-' || c == '.'

/-- A registered name, perhaps with a port. -/
def hostOk (s : List Char) : Bool :=
  encoded (fun c => unreserved c || subDelim c) (cut ':' s).1 &&
    (cut ':' s).2.all fun port => port.all Char.isDigit

/-- A host, perhaps with a user. -/
def authorityOk (s : List Char) : Bool :=
  match cut '@' s with
  | (host, none) => hostOk host
  | (userinfo, some host) =>
    encoded (fun c => unreserved c || subDelim c || c == ':') userinfo && hostOk host

/-- The parts are well formed. -/
def Parts.wellFormed (p : Parts) : Bool :=
  schemeOk p.scheme && p.authority.all authorityOk &&
    encoded (fun c => pchar c || c == '/') p.path &&
    p.query.all (encoded queryChar) && p.fragment.all (encoded queryChar)

/-- The authority and the path after the scheme. -/
def cutAuthority : List Char → Option (List Char) × List Char
  | '/' :: '/' :: s => (some (s.takeWhile (· != '/')), s.dropWhile (· != '/'))
  | s => (none, s)

/-- The parts of a text with a scheme: the first `#` starts the fragment, the first `?` before it
the query, and the first `:` ends the scheme. -/
def parts (s : List Char) : Option Parts :=
  match cut '#' s with
  | (s, fragment) =>
    match cut '?' s with
    | (s, query) =>
      (cut ':' s).2.map fun hier =>
        { scheme := (cut ':' s).1
          authority := (cutAuthority hier).1
          path := (cutAuthority hier).2
          query
          fragment }

end Uri

/-- A URI. -/
structure Uri extends Uri.Parts where
  wellFormed : toParts.wellFormed = true

namespace Uri

/-- The URI of a text; `none` if it is none. -/
def parse (s : List Char) : Option Uri :=
  (parts s).bind fun p => if h : p.wellFormed = true then some ⟨p, h⟩ else none

/-- The parameters of a query: names and values. -/
def parameters (query : List Char) : List (List UInt8 × Option (List UInt8)) :=
  (query.splitOn '&').map fun s => (octets (cut '=' s).1, (cut '=' s).2.map octets)

/-- The parameters of a URI. -/
def queryParameters (u : Uri) : List (List UInt8 × Option (List UInt8)) :=
  u.query.elim [] parameters

/-! ## Cutting -/

theorem bne_of_not_mem {c : Char} {s : List Char} (h : c ∉ s) : ∀ x ∈ s, (x != c) = true :=
  fun _ hx => bne_iff_ne.mpr fun he => h (he ▸ hx)

theorem cut_of_not_mem {c : Char} {s : List Char} (h : c ∉ s) : cut c s = (s, none) := by
  rw [cut, List.takeWhile_eq_self_iff.mpr (bne_of_not_mem h),
    List.dropWhile_eq_nil_iff.mpr (bne_of_not_mem h)]
  rfl

theorem cut_append {c : Char} {a : List Char} (h : c ∉ a) (b : List Char) :
    cut c (a ++ b) = (a ++ (cut c b).1, (cut c b).2) := by
  rw [cut, List.takeWhile_append_of_pos (bne_of_not_mem h),
    List.dropWhile_append_of_pos (bne_of_not_mem h)]
  rfl

theorem cut_append_cons {c : Char} {a : List Char} (h : c ∉ a) (b : List Char) :
    cut c (a ++ c :: b) = (a, some b) := by
  rw [cut_append h]
  simp [cut]

theorem takeWhile_append_cons_of_neg {p : Char → Bool} {c : Char} (hc : p c = false)
    (s t : List Char) : (s ++ c :: t).takeWhile p = s.takeWhile p := by
  induction s with
  | nil => simp [hc]
  | cons a s ih => rw [List.cons_append, List.takeWhile_cons, List.takeWhile_cons, ih]

/-! ## Percent-encoded texts -/

theorem isAlphanum_lt {c : Char} (h : c.isAlphanum = true) : c.toNat < 128 := by
  have h : (decide (c.val ≥ 'A'.val ∧ c.val ≤ 'Z'.val) ||
      (decide (c.val ≥ 'a'.val) && decide (c.val ≤ 'z'.val)) ||
      (decide (c.val ≥ '0'.val) && decide (c.val ≤ '9'.val))) = true := h
  simp only [Bool.or_eq_true, Bool.and_eq_true, decide_eq_true_eq, UInt32.le_iff_toNat_le,
    ge_iff_le] at h
  have hc : c.toNat = c.val.toNat := rfl
  have hZ : 'Z'.val.toNat = 90 := rfl
  have hz : 'z'.val.toNat = 122 := rfl
  have h9 : '9'.val.toNat = 57 := rfl
  omega

theorem lt_of_contains {l : List Char} {c : Char} (hl : (l.all fun x => x.toNat < 128) = true)
    (h : l.contains c = true) : c.toNat < 128 :=
  of_decide_eq_true (List.all_eq_true.mp hl c (by simpa using h))

theorem queryChar_lt {c : Char} (h : queryChar c = true) : c.toNat < 128 := by
  simp only [queryChar, pchar, unreserved, subDelim, Bool.or_eq_true, beq_iff_eq] at h
  rcases h with (((((h | h) | h) | rfl) | rfl) | rfl) | rfl
  · exact isAlphanum_lt h
  · exact lt_of_contains (by decide) h
  · exact lt_of_contains (by decide) h
  all_goals decide

theorem isHexDigit_lt {c : Char} (h : isHexDigit c = true) : c.toNat < 128 := by
  simp only [isHexDigit, Char.isDigit, Bool.or_eq_true, Bool.and_eq_true, decide_eq_true_eq,
    Char.le_def, UInt32.le_iff_toNat_le, ge_iff_le] at h
  have hc : c.toNat = c.val.toNat := rfl
  have hF : 'F'.val.toNat = 70 := rfl
  have hf : 'f'.val.toNat = 102 := rfl
  have h9 : '9'.val.toNat = 57 := rfl
  omega

theorem length_utf8EncodeChar {c : Char} (h : c.toNat < 128) :
    (String.utf8EncodeChar c).length = 1 := by
  rw [String.length_utf8EncodeChar, Char.utf8Size_eq_one_iff, UInt32.le_iff_toNat_le]
  exact Nat.le_of_lt_succ h

/-- A text is no longer than its UTF-8. -/
theorem length_le_utf8 (s : List Char) : s.length ≤ (utf8 s).length := by
  induction s with
  | nil => exact Nat.le_refl _
  | cons c s ih =>
    have hc := Char.utf8Size_pos c
    rw [utf8, List.flatMap_cons, List.length_append, String.length_utf8EncodeChar, List.length_cons]
    rw [utf8] at ih
    omega

theorem octets_cons {c : Char} (hc : c ≠ '%') (s : List Char) :
    octets (c :: s) = String.utf8EncodeChar c ++ octets s := by
  rw [octets]
  intro a b s' h
  exact (hc h).elim

theorem octets_of_not_mem {s : List Char} (h : '%' ∉ s) : octets s = utf8 s := by
  induction s with
  | nil => rfl
  | cons c s ih =>
    obtain ⟨hc, hs⟩ := List.ne_and_not_mem_of_not_mem_cons h
    rw [octets_cons hc.symm, ih hs, utf8, utf8, List.flatMap_cons]

theorem encoded_cons {allowed : Char → Bool} {c : Char} (hc : c ≠ '%') (s : List Char) :
    encoded allowed (c :: s) = (allowed c && encoded allowed s) := by
  rw [encoded, bne_iff_ne.mpr hc, Bool.true_and]
  intro a b s' h
  exact (hc h).elim

/-- A text that starts with a percent sign, with what follows it. -/
theorem encoded_percent {allowed : Char → Bool} {s : List Char}
    (h : encoded allowed ('%' :: s) = true) :
    ∃ a b t, s = a :: b :: t ∧ isHexDigit a = true ∧ isHexDigit b = true ∧
      encoded allowed t = true := by
  match s with
  | [] => simp [encoded] at h
  | [a] => simp [encoded] at h
  | a :: b :: t =>
    rw [encoded, Bool.and_eq_true, Bool.and_eq_true] at h
    exact ⟨a, b, t, rfl, h.1.1, h.1.2, h.2⟩

/-- A character that is no hexadecimal digit is not part of a percent-encoded octet. -/
theorem encoded_append_cons {allowed : Char → Bool} {c : Char} (hc : isHexDigit c = false)
    (s t : List Char) :
    encoded allowed (s ++ c :: t) = (encoded allowed s && encoded allowed (c :: t)) := by
  fun_induction encoded allowed s with
  | case1 => rw [List.nil_append, Bool.true_and]
  | case2 a b s ih =>
    simp only [List.cons_append, encoded, ih, Bool.and_assoc]
  | case3 a s hs ih =>
    by_cases ha : a = '%'
    · subst ha
      rw [bne_self_eq_false, Bool.false_and, Bool.false_and, Bool.false_and, Bool.eq_false_iff]
      intro h
      obtain ⟨x, y, z, he, hx, hy, -⟩ := encoded_percent h
      match s with
      | [] => cases he; rw [hc] at hx; cases hx
      | [d] => cases he; rw [hc] at hy; cases hy
      | d :: e :: s' => exact hs d e s' rfl rfl
    · rw [List.cons_append, encoded_cons ha, ih, bne_iff_ne.mpr ha, Bool.true_and, Bool.and_assoc]

/-- Each percent-encoded octet takes three characters, and each other character is one octet. -/
theorem length_octets {allowed : Char → Bool} (hascii : ∀ c, allowed c = true → c.toNat < 128)
    {s : List Char} (h : encoded allowed s = true) :
    (octets s).length + 2 * s.count '%' = s.length := by
  fun_induction encoded allowed s with
  | case1 => rfl
  | case2 a b s ih =>
    rw [Bool.and_eq_true, Bool.and_eq_true] at h
    obtain ⟨⟨ha, hb⟩, hs⟩ := h
    have hne : ∀ x, isHexDigit x = true → x ≠ '%' := by
      rintro x hx rfl
      cases hx
    rw [octets, List.length_cons, List.count_cons_self, List.count_cons_of_ne (hne a ha),
      List.count_cons_of_ne (hne b hb)]
    have := ih hs
    simp only [List.length_cons]
    omega
  | case3 c s hs ih =>
    rw [Bool.and_eq_true, Bool.and_eq_true, bne_iff_ne] at h
    obtain ⟨⟨hc, hallowed⟩, hs⟩ := h
    rw [octets_cons hc, List.length_append, length_utf8EncodeChar (hascii c hallowed),
      List.count_cons_of_ne hc, List.length_cons]
    have := ih hs
    omega

/-- Percent-encoded octets aside, the characters are those allowed. -/
theorem allowed_of_encoded {allowed : Char → Bool} {s : List Char} (h : encoded allowed s = true)
    (hs : '%' ∉ s) : ∀ c ∈ s, allowed c = true := by
  induction s with
  | nil => simp
  | cons c s ih =>
    obtain ⟨hc, hs⟩ := List.ne_and_not_mem_of_not_mem_cons hs
    rw [encoded_cons hc.symm, Bool.and_eq_true] at h
    exact List.forall_mem_cons.mpr ⟨h.1, ih h.2 hs⟩

theorem encoded_of_allowed {allowed : Char → Bool} (hp : allowed '%' = false) {s : List Char}
    (h : ∀ c ∈ s, allowed c = true) : encoded allowed s = true := by
  induction s with
  | nil => rfl
  | cons c s ih =>
    obtain ⟨hc, hs⟩ := List.forall_mem_cons.mp h
    have hne : c ≠ '%' := by
      rintro rfl
      rw [hp] at hc
      cases hc
    rw [encoded_cons hne, hc, ih hs]
    rfl

/-- The characters of a text with percent-encoded octets are all ASCII. -/
theorem ascii_of_encoded {allowed : Char → Bool} (hascii : ∀ c, allowed c = true → c.toNat < 128)
    {s : List Char} (h : encoded allowed s = true) : ∀ c ∈ s, c.toNat < 128 := by
  fun_induction encoded allowed s with
  | case1 => simp
  | case2 a b s ih =>
    rw [Bool.and_eq_true, Bool.and_eq_true] at h
    simp only [List.forall_mem_cons]
    exact ⟨by decide, isHexDigit_lt h.1.1, isHexDigit_lt h.1.2, ih h.2⟩
  | case3 c s hs ih =>
    rw [Bool.and_eq_true, Bool.and_eq_true, bne_iff_ne] at h
    obtain ⟨⟨-, hc⟩, hrest⟩ := h
    exact List.forall_mem_cons.mpr ⟨hascii c hc, ih hrest⟩

/-- An ASCII text has at most as many octets as characters. -/
theorem length_octets_le {s : List Char} (h : ∀ c ∈ s, c.toNat < 128) :
    (octets s).length ≤ s.length := by
  fun_induction octets s with
  | case1 => exact Nat.le_refl _
  | case2 a b s ih =>
    have := ih fun c hc => h c (by simp [hc])
    simp only [List.length_cons]
    omega
  | case3 c s hs ih =>
    have := ih fun x hx => h x (List.mem_cons_of_mem _ hx)
    rw [List.length_append, length_utf8EncodeChar (h c List.mem_cons_self), List.length_cons]
    omega

/-! ## A query that is appended -/

/-- A query that is appended to a text without one is the query, up to its first `#`. -/
theorem parts_append_query {base : List Char} (hf : '#' ∉ base) (hq : '?' ∉ base)
    (r : List Char) : parts (base ++ '?' :: r) = (parts base).map fun p =>
      { p with query := some (cut '#' r).1, fragment := (cut '#' r).2 } := by
  have hcut : cut '#' ('?' :: r) = ('?' :: (cut '#' r).1, (cut '#' r).2) :=
    cut_append (a := ['?']) (by decide) r
  simp only [parts, cut_append hf, hcut, cut_append_cons hq, cut_of_not_mem hf,
    cut_of_not_mem hq, Option.map_map]
  rfl

theorem parse_eq_some {s : List Char} {u : Uri} (h : parse s = some u) :
    parts s = some u.toParts := by
  obtain ⟨p, hp, hu⟩ := Option.bind_eq_some_iff.mp h
  split at hu
  · cases hu; exact hp
  · cases hu

/-- The query of the URI, if there is one, is well formed. -/
theorem query_of_parse {base r : List Char} {u : Uri} (hf : '#' ∉ base) (hq : '?' ∉ base)
    (h : parse (base ++ '?' :: r) = some u) :
    u.query = some (cut '#' r).1 ∧ encoded queryChar (cut '#' r).1 = true := by
  have hp := parse_eq_some h
  rw [parts_append_query hf hq] at hp
  obtain ⟨p, -, hp⟩ := Option.map_eq_some_iff.mp hp
  have hquery : u.query = some (cut '#' r).1 := by rw [← hp]
  have hw := u.wellFormed
  simp only [Parts.wellFormed, Bool.and_eq_true, hquery, Option.all_some] at hw
  exact ⟨hquery, hw.1.2⟩

/-- A text without a `#` that is well formed in a query makes a URI with that query. -/
theorem parse_append_query {base r : List Char} (hf : '#' ∉ base) (hq : '?' ∉ base)
    (hbase : (parse base).isSome) (hr : '#' ∉ r) (he : encoded queryChar r = true) :
    ∃ u, parse (base ++ '?' :: r) = some u ∧ u.query = some r := by
  obtain ⟨u, hu⟩ := Option.isSome_iff_exists.mp hbase
  have hw := u.wellFormed
  simp only [Parts.wellFormed, Bool.and_eq_true] at hw
  have hp := parts_append_query hf hq r
  rw [parse_eq_some hu, cut_of_not_mem hr, Option.map_some] at hp
  have hw' : { u.toParts with query := some r, fragment := none }.wellFormed = true := by
    simp only [Parts.wellFormed, Bool.and_eq_true, Option.all_some, Option.all_none]
    exact ⟨⟨hw.1.1, he⟩, trivial⟩
  refine ⟨⟨_, hw'⟩, ?_, rfl⟩
  rw [parse, hp, Option.bind_some, dif_pos hw']

/-! ## Values in a query -/

/-- The character stands for itself in the value of a parameter. -/
def plain (c : Char) : Bool := queryChar c && c != '&'

theorem head?_splitOn (c : Char) (s : List Char) :
    (s.splitOn c).head? = some (s.takeWhile (· != c)) := by
  induction s with
  | nil => rfl
  | cons a s ih =>
    rw [List.splitOn_cons_eq_if_modifyHead]
    by_cases ha : a = c
    · simp [ha]
    · rw [if_neg (by simpa using ha), List.takeWhile_cons_of_pos (p := (· != c))
        (bne_iff_ne.mpr ha)]
      obtain ⟨x, l, hx⟩ := List.exists_cons_of_ne_nil (List.splitOn_ne_nil c s)
      rw [hx] at ih ⊢
      cases ih
      rfl

theorem ne_of_plain {c x : Char} (hc : plain c = true) (hx : plain x = false) : c ≠ x := by
  rintro rfl
  rw [hx] at hc
  cases hc

theorem not_mem_of_plain {s : List Char} {x : Char} (hs : ∀ c ∈ s, plain c = true)
    (hx : plain x = false) : x ∉ s := fun hm => ne_of_plain (hs x hm) hx rfl

theorem not_mem_parameter {name value : List Char} {x : Char} (hx : plain x = false)
    (hname : ∀ c ∈ name, plain c = true) (hvalue : x ∉ value) : x ∉ name ++ '=' :: value := by
  intro hm
  rcases List.mem_append.mp hm with hm | hm
  · exact not_mem_of_plain hname hx hm
  · rcases List.mem_cons.mp hm with rfl | hm
    · cases hx
    · exact hvalue hm

theorem encoded_of_plain {s : List Char} (hs : ∀ c ∈ s, plain c = true) :
    encoded queryChar s = true :=
  encoded_of_allowed (by decide) fun c hc => (Bool.and_eq_true _ _ ▸ hs c hc).1

/-- Where a value that is followed by `&` ends for a reader of the query. -/
def untilDelimiter (value : List Char) : List Char :=
  value.takeWhile fun c => c != '&' && c != '#'

theorem takeWhile_query {name : List Char} (hname : ∀ c ∈ name, plain c = true)
    (value rest : List Char) :
    (cut '#' (name ++ '=' :: (value ++ '&' :: rest))).1.takeWhile (· != '&') =
      name ++ '=' :: untilDelimiter value := by
  have hboth : (fun c : Char => decide ((c != '&') = true ∧ (c != '#') = true)) =
      fun c => c != '&' && c != '#' := by
    funext c
    rw [Bool.decide_and, Bool.decide_eq_true, Bool.decide_eq_true]
  have hpre : ∀ c ∈ name ++ ['='], (c != '&' && c != '#') = true := by
    intro c hc
    rcases List.mem_append.mp hc with hc | hc
    · rw [bne_iff_ne.mpr (ne_of_plain (hname c hc) (by decide)),
        bne_iff_ne.mpr (ne_of_plain (hname c hc) (by decide))]
      rfl
    · rw [List.mem_singleton.mp hc]
      decide
  rw [cut, List.takeWhile_takeWhile, hboth, List.append_cons, List.takeWhile_append_of_pos hpre,
    takeWhile_append_cons_of_neg (by decide), ← List.append_cons]
  rfl

/-- The first parameter of a query, up to the first `#`, that starts with `name=value&`. -/
theorem head?_parameters {name : List Char} (hname : ∀ c ∈ name, plain c = true)
    (heq : '=' ∉ name) (value rest : List Char) :
    (parameters (cut '#' (name ++ '=' :: (value ++ '&' :: rest))).1).head? =
      some (octets name, some (octets (untilDelimiter value))) := by
  rw [parameters, List.head?_map, head?_splitOn, takeWhile_query hname, Option.map_some,
    cut_append_cons heq]
  rfl

/-- The same for the query of a URI. -/
theorem head?_queryParameters {base name value rest : List Char} {u : Uri} (hf : '#' ∉ base)
    (hq : '?' ∉ base) (hname : ∀ c ∈ name, plain c = true) (heq : '=' ∉ name)
    (hu : parse (base ++ '?' :: (name ++ '=' :: (value ++ '&' :: rest))) = some u) :
    u.queryParameters.head? = some (utf8 name, some (octets (untilDelimiter value))) := by
  rw [queryParameters, (query_of_parse hf hq hu).1, Option.elim_some, head?_parameters hname heq,
    octets_of_not_mem (not_mem_of_plain hname (by decide))]

/-- A value whose text is read back ends at the `&` that was written after it. -/
theorem untilDelimiter_eq {value : List Char}
    (hascii : ∀ c ∈ untilDelimiter value, c.toNat < 128)
    (h : octets (untilDelimiter value) = utf8 value) : untilDelimiter value = value := by
  refine (List.takeWhile_prefix _).eq_of_length_le ?_
  calc value.length ≤ (utf8 value).length := length_le_utf8 value
    _ = (octets (untilDelimiter value)).length := by rw [h]
    _ ≤ (untilDelimiter value).length := length_octets_le hascii

/-- A value whose text is read back, and that is well formed, has no percent sign. -/
theorem not_mem_percent {value : List Char} (he : encoded queryChar value = true)
    (h : octets value = utf8 value) : '%' ∉ value := by
  have hlen := length_octets (fun c => queryChar_lt) he
  have hle := length_le_utf8 value
  rw [h] at hlen
  exact List.count_eq_zero.mp (by omega)

/-- A value without a `#` in a query that is well formed is so itself. -/
theorem encoded_value {name value rest : List Char} (hname : ∀ c ∈ name, plain c = true)
    (hvalue : '#' ∉ value)
    (he : encoded queryChar (cut '#' (name ++ '=' :: (value ++ '&' :: rest))).1 = true) :
    encoded queryChar value = true := by
  have hfragment : '#' ∉ name ++ '=' :: (value ++ ['&']) := by
    refine not_mem_parameter (by decide) hname fun hm => ?_
    rcases List.mem_append.mp hm with hm | hm
    · exact hvalue hm
    · exact absurd (List.mem_singleton.mp hm) (by decide)
  have hsplit : name ++ '=' :: (value ++ '&' :: rest) =
      (name ++ '=' :: (value ++ ['&'])) ++ rest := by simp
  rw [hsplit, cut_append hfragment] at he
  simp only [List.append_assoc, List.cons_append, List.nil_append] at he
  rw [encoded_append_cons (by decide), encoded_cons (by decide), encoded_append_cons (by decide),
    Bool.and_eq_true, Bool.and_eq_true, Bool.and_eq_true] at he
  exact he.2.2.1

/-- A value that is read back as it was written has only characters that stand for themselves. -/
theorem plain_of_head {base name value rest : List Char} {u : Uri} (hf : '#' ∉ base)
    (hq : '?' ∉ base) (hname : ∀ c ∈ name, plain c = true) (heq : '=' ∉ name)
    (hu : parse (base ++ '?' :: (name ++ '=' :: (value ++ '&' :: rest))) = some u)
    (hhead : u.queryParameters.head? = some (utf8 name, some (utf8 value))) :
    ∀ c ∈ value, plain c = true := by
  have hencoded := (query_of_parse hf hq hu).2
  rw [head?_queryParameters hf hq hname heq hu] at hhead
  have hoctets : octets (untilDelimiter value) = utf8 value := by
    simpa using hhead
  have hascii : ∀ c ∈ untilDelimiter value, c.toNat < 128 := by
    intro c hc
    refine ascii_of_encoded (fun c => queryChar_lt) hencoded c ?_
    refine List.takeWhile_subset (· != '&') ?_
    rw [takeWhile_query hname]
    exact List.mem_append_right _ (List.mem_cons_of_mem _ hc)
  -- The value is read up to its first `&` or `#`, so it has neither.
  have hwhole := untilDelimiter_eq hascii hoctets
  have hdelimiter : ∀ c ∈ value, (c != '&' && c != '#') = true :=
    List.takeWhile_eq_self_iff.mp hwhole
  have hne : ∀ c ∈ value, c ≠ '&' ∧ c ≠ '#' := fun c hc => by
    have hd := hdelimiter c hc
    rwa [Bool.and_eq_true, bne_iff_ne, bne_iff_ne] at hd
  have hvalue := encoded_value hname (fun hm => (hne _ hm).2 rfl) hencoded
  rw [hwhole] at hoctets
  have hpercent := not_mem_percent hvalue hoctets
  intro c hc
  rw [plain, allowed_of_encoded hvalue hpercent c hc, bne_iff_ne.mpr (hne c hc).1]
  rfl

/-- A value of characters that stand for themselves makes a URI and is read back, before the
parameters that were written after it. -/
theorem parameters_of_plain {base name value rest : List Char} (hf : '#' ∉ base) (hq : '?' ∉ base)
    (hbase : (parse base).isSome) (hname : ∀ c ∈ name, plain c = true) (heq : '=' ∉ name)
    (hrest : '#' ∉ rest) (hencoded : encoded queryChar rest = true)
    (hvalue : ∀ c ∈ value, plain c = true) :
    ∃ u, parse (base ++ '?' :: (name ++ '=' :: (value ++ '&' :: rest))) = some u ∧
      u.queryParameters = (utf8 name, some (utf8 value)) :: parameters rest := by
  have hfragment : '#' ∉ name ++ '=' :: (value ++ '&' :: rest) := by
    refine not_mem_parameter (by decide) hname fun hm => ?_
    rcases List.mem_append.mp hm with hm | hm
    · exact not_mem_of_plain hvalue (by decide) hm
    · exact hrest (List.mem_of_ne_of_mem (by decide) hm)
  have hall : encoded queryChar (name ++ '=' :: (value ++ '&' :: rest)) = true := by
    rw [encoded_append_cons (by decide), encoded_cons (by decide), encoded_append_cons (by decide),
      encoded_cons (by decide), encoded_of_plain hname, encoded_of_plain hvalue, hencoded]
    decide
  obtain ⟨u, hu, hquery⟩ := parse_append_query hf hq hbase hfragment hall
  have hamp : '&' ∉ name ++ '=' :: value :=
    not_mem_parameter (by decide) hname (not_mem_of_plain hvalue (by decide))
  refine ⟨u, hu, ?_⟩
  rw [queryParameters, hquery, Option.elim_some, parameters, parameters, ← List.cons_append,
    ← List.append_assoc, List.splitOn_append_cons_self_of_not_mem hamp, List.map_cons,
    cut_append_cons heq, octets_of_not_mem (not_mem_of_plain hname (by decide)), Option.map_some,
    octets_of_not_mem (not_mem_of_plain hvalue (by decide))]

end Uri
