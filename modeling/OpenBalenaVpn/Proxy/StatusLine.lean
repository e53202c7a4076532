import OpenBalenaVpn.Proxy.Forward
import Mathlib.Data.List.TakeWhile

namespace OpenBalenaVpn.Proxy

section StatusCode

def isDigit (c : Char) : Bool := Json.isDigit c.toNat

def isSpace (c : Char) : Bool := JsString.isSpace c.toNat

-- A text that is read as 200, without what may stand around it.
def Code (text : Text) : Prop :=
  ∃ digits, (text = digits ∨ text = '+' :: digits) ∧ digits ≠ [] ∧
    (∀ c ∈ digits, isDigit c = true) ∧ Number.parseInt digits = .finite 200

-- The text does not start with a digit.
def Ends (text : Text) : Prop := ∀ c rest, text = c :: rest → isDigit c = false

def signed : Text → Bool × Text
  | [] => (false, [])
  | c :: rest =>
      if c = '-' then (true, rest) else if c = '+' then (false, rest) else (false, c :: rest)

theorem map_ofNat_toNat (text : Text) : (text.map Char.toNat).map Char.ofNat = text := by
  rw [List.map_map]
  have hid : Char.ofNat ∘ Char.toNat = id := funext Char.ofNat_toNat
  rw [hid, List.map_id]

theorem takeWhile_isDigit_map (text : Text) :
    (text.map Char.toNat).takeWhile Json.isDigit = (text.takeWhile isDigit).map Char.toNat :=
  List.takeWhile_map

theorem dropWhile_isSpace_map (text : Text) :
    (text.map Char.toNat).dropWhile JsString.isSpace = (text.dropWhile isSpace).map Char.toNat :=
  List.dropWhile_map

theorem sign_map (text : Text) :
    JsString.sign (text.map Char.toNat) = ((signed text).1, (signed text).2.map Char.toNat) := by
  cases text with
  | nil => rfl
  | cons c rest =>
      have hiff : ∀ d : Char, c.toNat = d.toNat ↔ c = d := fun d =>
        ⟨fun h => Char.toNat_inj.mp h, congrArg Char.toNat⟩
      rw [List.map_cons, JsString.sign, signed]
      simp only [hiff]
      split
      · rfl
      split <;> rfl

theorem parseText_eq (text : Text) : parseText text =
    if (signed (text.dropWhile isSpace)).2.takeWhile isDigit = [] then .nan
    else .number (signed (text.dropWhile isSpace)).1
      (Number.parseInt ((signed (text.dropWhile isSpace)).2.takeWhile isDigit)) := by
  rw [parseText, JsString.parseInt, dropWhile_isSpace_map, sign_map]
  simp only [takeWhile_isDigit_map, List.map_eq_nil_iff, map_ofNat_toNat]

theorem ends_dropWhile (text : Text) : Ends (text.dropWhile isDigit) := by
  intro c rest h
  have hhead := List.head?_dropWhile_not isDigit text
  rw [h] at hhead
  simpa using hhead

theorem takeWhile_of_ends {digits rest : Text} (hd : ∀ c ∈ digits, isDigit c = true)
    (hr : Ends rest) : (digits ++ rest).takeWhile isDigit = digits := by
  rw [List.takeWhile_append_of_pos hd]
  cases rest with
  | nil => simp
  | cons c rest => rw [List.takeWhile_cons_of_neg (by simp [hr c rest rfl]), List.append_nil]

theorem isSpace_of_isDigit {c : Char} (h : isDigit c = true) : isSpace c = false := by
  have hrange : 48 ≤ c.toNat ∧ c.toNat ≤ 57 := by simpa [isDigit, Json.isDigit] using h
  simp only [isSpace, JsString.isSpace, List.mem_cons, List.not_mem_nil, or_false,
    Bool.or_eq_false_iff, decide_eq_false_iff_not, Bool.and_eq_false_iff]
  omega

-- A code starts with a digit or a plus, which no white space is, and ends with a digit.
theorem Code.head {text : Text} (h : Code text) :
    ∃ c rest, text = c :: rest ∧ (isDigit c = true ∨ c = '+') := by
  obtain ⟨digits, rfl | rfl, hne, hdigits, _⟩ := h
  · obtain ⟨c, rest, rfl⟩ := List.exists_cons_of_ne_nil hne
    exact ⟨c, rest, rfl, Or.inl (hdigits c List.mem_cons_self)⟩
  · exact ⟨'+', digits, rfl, Or.inr rfl⟩

theorem Code.mem {text : Text} (h : Code text) {c : Char} (hc : c ∈ text) :
    isDigit c = true ∨ c = '+' := by
  obtain ⟨digits, rfl | rfl, _, hdigits, _⟩ := h
  · exact Or.inl (hdigits c hc)
  · rcases List.mem_cons.mp hc with rfl | hm
    · exact Or.inr rfl
    · exact Or.inl (hdigits c hm)

theorem isSpace_of_code {c : Char} (h : isDigit c = true ∨ c = '+') : isSpace c = false := by
  rcases h with hdigit | rfl
  · exact isSpace_of_isDigit hdigit
  · decide

theorem signed_of_code {text : Text} (h : Code text) (rest : Text) (hr : Ends rest) :
    (signed (text ++ rest)).1 = false ∧
      (signed (text ++ rest)).2.takeWhile isDigit ≠ [] ∧
      Number.parseInt ((signed (text ++ rest)).2.takeWhile isDigit) = .finite 200 := by
  obtain ⟨digits, hsign, hne, hdigits, hvalue⟩ := h
  have htake := takeWhile_of_ends hdigits hr
  rcases hsign with rfl | rfl
  · obtain ⟨c, more, rfl⟩ := List.exists_cons_of_ne_nil hne
    have hc := hdigits c List.mem_cons_self
    have hminus : c ≠ '-' := by rintro rfl; exact absurd hc (by decide)
    have hplus : c ≠ '+' := by rintro rfl; exact absurd hc (by decide)
    have hsigned : signed (c :: more ++ rest) = (false, c :: more ++ rest) := by
      rw [List.cons_append, signed, if_neg hminus, if_neg hplus]
    rw [hsigned]
    exact ⟨rfl, by rw [htake]; exact hne, by rw [htake]; exact hvalue⟩
  · have hsigned : signed ('+' :: digits ++ rest) = (false, digits ++ rest) := rfl
    rw [hsigned]
    exact ⟨rfl, by rw [htake]; exact hne, by rw [htake]; exact hvalue⟩

-- Which texts are read as 200.
theorem parseText_eq_ok200_iff (text : Text) : parseText text = ok200 ↔
    ∃ space code rest, text = space ++ (code ++ rest) ∧ (∀ c ∈ space, isSpace c = true) ∧
      Code code ∧ Ends rest := by
  constructor
  · intro h
    rw [parseText_eq] at h
    have hsplit : text = text.takeWhile isSpace ++ text.dropWhile isSpace :=
      List.takeWhile_append_dropWhile.symm
    have hspace : ∀ c ∈ text.takeWhile isSpace, isSpace c = true := fun c hc =>
      List.mem_takeWhile_imp hc
    generalize htail : text.dropWhile isSpace = tail at h hsplit
    by_cases hnil : (signed tail).2.takeWhile isDigit = []
    · rw [if_pos hnil] at h
      cases h
    rw [if_neg hnil, ok200, ParsedInt.number.injEq] at h
    have hdigits : ∀ c ∈ (signed tail).2.takeWhile isDigit, isDigit c = true := fun c hc =>
      List.mem_takeWhile_imp hc
    have hrest : (signed tail).2.takeWhile isDigit ++ (signed tail).2.dropWhile isDigit =
        (signed tail).2 := List.takeWhile_append_dropWhile
    have hends := ends_dropWhile (signed tail).2
    have hsigned : tail = (signed tail).2 ∨ tail = '+' :: (signed tail).2 := by
      cases tail with
      | nil => exact Or.inl rfl
      | cons c more =>
          rw [signed] at h ⊢
          by_cases hminus : c = '-'
          · rw [if_pos hminus] at h
            cases h.1
          by_cases hplus : c = '+'
          · subst hplus
            exact Or.inr rfl
          · rw [if_neg hminus, if_neg hplus]
            exact Or.inl rfl
    rcases hsigned with heq | heq
    · refine ⟨_, _, _, ?_, hspace, ⟨_, Or.inl rfl, hnil, hdigits, h.2⟩, hends⟩
      rw [hrest, ← heq]
      exact hsplit
    · refine ⟨_, _, _, ?_, hspace, ⟨_, Or.inr rfl, hnil, hdigits, h.2⟩, hends⟩
      rw [List.cons_append, hrest, ← heq]
      exact hsplit
  · rintro ⟨space, code, rest, rfl, hspace, hcode, hends⟩
    have hdrop : (space ++ (code ++ rest)).dropWhile isSpace = code ++ rest := by
      rw [List.dropWhile_append_of_pos hspace]
      obtain ⟨c, more, rfl, hc⟩ := hcode.head
      rw [List.cons_append, List.dropWhile_cons_of_neg (by simp [isSpace_of_code hc])]
    obtain ⟨hsign, hne, hvalue⟩ := signed_of_code hcode rest hends
    rw [parseText_eq, hdrop, if_neg hne, hsign, hvalue]
    rfl

end StatusCode

section FirstLine

def crlf : Text := ['\r', '\n']

theorem httpStatusLine_cons {c : Char} {rest : Text} (h : ¬ crlf <+: c :: rest) :
    httpStatusLine (c :: rest) = c :: httpStatusLine rest := by
  have hnone : ∀ more, c = '\r' → rest = '\n' :: more → False := by
    rintro more rfl rfl
    exact h ⟨more, rfl⟩
  cases hlines : Http.splitLines rest with
  | nil =>
      have hsplit : Http.splitLines (c :: rest) = [[c]] := by
        rw [Http.splitLines, hlines]
        exact hnone
      rw [httpStatusLine, httpStatusLine, hsplit, hlines]
      rfl
  | cons line lines =>
      have hsplit : Http.splitLines (c :: rest) = (c :: line) :: lines := by
        rw [Http.splitLines, hlines]
        exact hnone
      rw [httpStatusLine, httpStatusLine, hsplit, hlines]
      rfl

-- The first line ends where the text ends or where the first line break stands.
theorem httpStatusLine_spec (text : Text) :
    ¬ crlf <:+: httpStatusLine text ∧
      ∃ rest, text = httpStatusLine text ++ rest ∧ (rest = [] ∨ crlf <+: rest) := by
  induction text with
  | nil => exact ⟨by decide, [], rfl, Or.inl rfl⟩
  | cons c text ih =>
      by_cases hbreak : crlf <+: c :: text
      · have hline : httpStatusLine (c :: text) = [] := by
          obtain ⟨rest, hrest⟩ := hbreak
          rw [← hrest]
          rfl
        rw [hline]
        exact ⟨by decide, c :: text, rfl, Or.inr hbreak⟩
      · obtain ⟨hnone, rest, htext, hrest⟩ := ih
        rw [httpStatusLine_cons hbreak]
        refine ⟨fun hinside => ?_, rest, by rw [List.cons_append, ← htext], hrest⟩
        rcases List.infix_cons_iff.mp hinside with hprefix | hinner
        · apply hbreak
          rw [htext, ← List.cons_append]
          exact hprefix.trans (List.prefix_append _ rest)
        · exact hnone hinner

-- A text without a line break is a part of the first line, unless its last character
-- begins one.
theorem httpStatusLine_append {text : Text} {c : Char} (hbreak : ¬ crlf <:+: text ++ [c])
    (hc : c ≠ '\r') (rest : Text) :
    httpStatusLine (text ++ c :: rest) = text ++ c :: httpStatusLine rest := by
  induction text with
  | nil =>
      refine httpStatusLine_cons fun hprefix => hc ?_
      obtain ⟨more, hmore⟩ := hprefix
      exact (List.cons.inj hmore).1.symm
  | cons d text ih =>
      have htail : ¬ crlf <:+: text ++ [c] := fun hinside =>
        hbreak (hinside.trans (List.suffix_cons d _).isInfix)
      rw [List.cons_append, httpStatusLine_cons, ih htail, List.cons_append]
      intro hprefix
      apply hbreak
      rw [show d :: (text ++ c :: rest) = d :: text ++ [c] ++ rest by simp] at hprefix
      refine (List.prefix_of_prefix_length_le hprefix (List.prefix_append _ rest) ?_).isInfix
      simp [crlf]

end FirstLine

section Status

-- White space that does not end the word.
def Blank (text : Text) : Prop := ∀ c ∈ text, isSpace c = true ∧ c ≠ ' '

theorem splitOn_head (text : Text) :
    (text.splitOn ' ').head? = some (text.takeWhile (· ≠ ' ')) := by
  have hall : ∀ {word : Text}, ' ' ∉ word → ∀ c ∈ word, decide (c ≠ ' ') = true :=
    fun hword c hc => decide_eq_true fun heq => hword (heq ▸ hc)
  by_cases hmem : ' ' ∈ text
  · obtain ⟨word, rest, rfl, hword⟩ := List.eq_append_cons_of_mem hmem
    rw [List.splitOn_append_cons_self_of_not_mem hword, List.head?_cons,
      List.takeWhile_append_of_pos (hall hword), List.takeWhile_cons_of_neg (by simp),
      List.append_nil]
  · rw [List.splitOn_eq_singleton hmem, List.head?_cons, List.takeWhile_eq_self_iff.mpr (hall hmem)]

theorem httpStatusCode_append {version : Text} (h : ' ' ∉ version) (rest : Text) :
    httpStatusCode (version ++ ' ' :: rest) = parseText (rest.takeWhile (· ≠ ' ')) := by
  have hpiece : ((version ++ ' ' :: rest).splitOn ' ')[1]? =
      some (rest.takeWhile (· ≠ ' ')) := by
    rw [List.splitOn_append_cons_self_of_not_mem h, List.getElem?_cons_succ,
      ← List.head?_eq_getElem?, splitOn_head]
  rw [httpStatusCode, hpiece]

theorem httpStatusCode_of_notMem {line : Text} (h : ' ' ∉ line) :
    httpStatusCode line = .nan := by
  rw [httpStatusCode, List.splitOn_eq_singleton h]
  rfl

theorem Ends.append {first second : Text} (hfirst : Ends first) (hsecond : Ends second) :
    Ends (first ++ second) := by
  cases first with
  | nil => exact hsecond
  | cons d first =>
      rintro c rest h
      obtain ⟨rfl, _⟩ := List.cons.inj h
      exact hfirst d first rfl

theorem Ends.of_append {first second : Text} (h : Ends (first ++ second)) : Ends first := by
  rintro c rest rfl
  exact h c (rest ++ second) rfl

theorem ends_of_head {c : Char} (h : isDigit c = false) (rest : Text) : Ends (c :: rest) := by
  intro d more heq
  obtain ⟨rfl, _⟩ := List.cons.inj heq
  exact h

theorem ends_nil : Ends [] := fun _ _ h => nomatch h

-- Two elements one after the other, the second not in what follows.
theorem pair_infix_of_append {α : Type*} {x y : α} {first second : List α}
    (h : [x, y] <:+: first ++ second) (hy : y ∉ second) : [x, y] <:+: first := by
  obtain ⟨before, rest, heq⟩ := h
  rcases List.append_eq_append_iff.mp heq with ⟨more, hfirst, _⟩ | ⟨more, hbefore, hsecond⟩
  · exact ⟨before, more, hfirst.symm⟩
  · rcases List.eq_nil_or_concat' more with rfl | ⟨init, last, rfl⟩
    · exact ⟨before, [], by rw [List.append_nil, hbefore, List.append_nil]⟩
    · have hlast : y = last := by
        have hconcat : (before ++ [x]) ++ [y] = (first ++ init) ++ [last] := by
          simpa using hbefore
        exact (List.append_inj' hconcat rfl).2 |> List.cons.inj |>.1
      refine absurd ?_ hy
      rw [hsecond, hlast]
      simp

theorem Code.last {text : Text} (h : Code text) :
    ∃ init c, text = init ++ [c] ∧ isDigit c = true := by
  obtain ⟨digits, hsign, hne, hdigits, _⟩ := h
  obtain ⟨init, c, rfl⟩ := (List.eq_nil_or_concat' digits).resolve_left hne
  have hc : isDigit c = true := hdigits c (by simp)
  rcases hsign with rfl | rfl
  · exact ⟨init, c, rfl, hc⟩
  · exact ⟨'+' :: init, c, rfl, hc⟩

theorem not_crlf_append_code {text code : Text} (h : ¬ crlf <:+: text) (hcode : Code code) :
    ¬ crlf <:+: text ++ code := by
  intro hinside
  refine h (pair_infix_of_append hinside fun hmem => ?_)
  exact absurd (hcode.mem hmem) (by decide)

theorem httpStatusLine_append_code {text code : Text} (h : ¬ crlf <:+: text) (hcode : Code code)
    (rest : Text) :
    httpStatusLine (text ++ (code ++ rest)) = text ++ (code ++ httpStatusLine rest) := by
  have hnone := not_crlf_append_code h hcode
  obtain ⟨init, c, rfl, hc⟩ := hcode.last
  have hreturn : c ≠ '\r' := by
    rintro rfl
    exact absurd hc (by decide)
  have happend := @httpStatusLine_append (text ++ init) c (by rwa [List.append_assoc]) hreturn rest
  simpa using happend

theorem takeWhile_append_code {space code : Text} (hblank : Blank space) (hcode : Code code)
    (rest : Text) : (space ++ (code ++ rest)).takeWhile (· ≠ ' ') =
      space ++ (code ++ rest.takeWhile (· ≠ ' ')) := by
  rw [List.takeWhile_append_of_pos fun c hc => decide_eq_true (hblank c hc).2,
    List.takeWhile_append_of_pos]
  intro c hc
  refine decide_eq_true ?_
  rintro rfl
  exact absurd (hcode.mem hc) (by decide)

theorem Ends.takeWhile {text : Text} (h : Ends text) : Ends (text.takeWhile (· ≠ ' ')) := by
  rw [← @List.takeWhile_append_dropWhile _ (fun c => decide (c ≠ ' ')) text] at h
  exact h.of_append

-- A word is followed by a space, by the end of its line or by the end of the text.
theorem ends_word (words : Text) {tail : Text} (htail : tail = [] ∨ crlf <+: tail) :
    Ends (words.dropWhile (· ≠ ' ') ++ tail) := by
  refine Ends.append ?_ ?_
  · intro c rest hdrop
    have hhead := List.head?_dropWhile_not (fun c => decide (c ≠ ' ')) words
    rw [hdrop] at hhead
    have hc : c = ' ' := by simpa using hhead
    rw [hc]
    decide
  · rcases htail with rfl | ⟨rest, rfl⟩
    · exact ends_nil
    · exact ends_of_head (by decide) _

-- The second word of the first line is read as 200.
theorem status_iff (text : Text) : httpStatusCode (httpStatusLine text) = ok200 ↔
    ∃ version space code rest, text = version ++ ' ' :: (space ++ (code ++ rest)) ∧
      ' ' ∉ version ∧ ¬ crlf <:+: version ++ ' ' :: space ∧ Blank space ∧ Code code ∧
      Ends rest := by
  constructor
  · intro h
    obtain ⟨hnone, tail, htext, htail⟩ := httpStatusLine_spec text
    generalize httpStatusLine text = line at h hnone htext
    by_cases hmem : ' ' ∈ line
    swap
    · rw [httpStatusCode_of_notMem hmem] at h
      cases h
    obtain ⟨version, words, rfl, hversion⟩ := List.eq_append_cons_of_mem hmem
    rw [httpStatusCode_append hversion] at h
    obtain ⟨space, code, more, hword, hspace, hcode, hmore⟩ :=
      (parseText_eq_ok200_iff _).mp h
    have hwords : words = space ++ (code ++ (more ++ words.dropWhile (· ≠ ' '))) := by
      have hsplit := @List.takeWhile_append_dropWhile _ (fun c => decide (c ≠ ' ')) words
      rw [hword] at hsplit
      simpa using hsplit.symm
    refine ⟨version, space, code, more ++ (words.dropWhile (· ≠ ' ') ++ tail), ?_, hversion,
      ?_, ?_, hcode, hmore.append (ends_word words htail)⟩
    · rw [htext, List.append_assoc, List.cons_append]
      nth_rewrite 1 [hwords]
      simp only [List.append_assoc]
    · intro hinside
      apply hnone
      rw [hwords, ← List.cons_append, ← List.append_assoc]
      exact hinside.trans (List.prefix_append _ _).isInfix
    · intro c hc
      have hblank : c ∈ words.takeWhile (· ≠ ' ') := by
        rw [hword]
        exact List.mem_append_left _ hc
      exact ⟨hspace c hc, by simpa using List.mem_takeWhile_imp hblank⟩
  · rintro ⟨version, space, code, rest, rfl, hversion, hbreak, hblank, hcode, hends⟩
    obtain ⟨_, tail, hrest, _⟩ := httpStatusLine_spec rest
    have hline : httpStatusLine (version ++ ' ' :: (space ++ (code ++ rest))) =
        version ++ ' ' :: (space ++ (code ++ httpStatusLine rest)) := by
      have happend := httpStatusLine_append_code hbreak hcode rest
      simpa using happend
    rw [hrest] at hends
    rw [hline, httpStatusCode_append hversion, takeWhile_append_code hblank hcode]
    exact (parseText_eq_ok200_iff _).mpr
      ⟨space, code, _, rfl, fun c hc => (hblank c hc).1, hcode, hends.of_append.takeWhile⟩

end Status

end OpenBalenaVpn.Proxy
