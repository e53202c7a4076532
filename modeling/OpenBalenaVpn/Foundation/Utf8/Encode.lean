import OpenBalenaVpn.Foundation.Utf8

namespace OpenBalenaVpn.Utf8

section Encoder

-- `Buffer.from(text)`
def encode (text : List Char) : List UInt8 := text.flatMap String.utf8EncodeChar

@[simp] theorem encode_nil : encode [] = [] := rfl

@[simp] theorem encode_cons (c : Char) (text : List Char) :
    encode (c :: text) = String.utf8EncodeChar c ++ encode text := rfl

theorem encode_append (first second : List Char) :
    encode (first ++ second) = encode first ++ encode second := List.flatMap_append

-- From the state, the bytes give the character with the last one of them, and those after
-- the first one do not start a character.
inductive Gives (c : Char) : State → List UInt8 → Prop where
  | last {state : State} {byte : UInt8} (h : feed state byte.toNat = ([c], .start)) :
      Gives c state [byte]
  | more {state next : State} {byte following : UInt8} {bytes : List UInt8}
      (h : feed state byte.toNat = ([], next)) (hnext : next ≠ .start)
      (hcontinues : 0x80 ≤ following.toNat ∧ following.toNat ≤ 0xBF)
      (hrest : Gives c next (following :: bytes)) : Gives c state (byte :: following :: bytes)

theorem toNat_ofNat_byte {n : Nat} (h : n < 256) : (UInt8.ofNat n).toNat = n := by
  simp only [UInt8.toNat_ofNat']
  omega

theorem lead_two {high : Nat} (h : 2 ≤ high ∧ high < 32) :
    ∃ hs, lead (high + 0xC0) = ([], .one high hs) := by
  refine ⟨by unfold Short; omega, ?_⟩
  rw [lead, if_neg (by omega), dif_pos (by omega)]
  simp only [Nat.add_sub_cancel]

-- The lead byte of three, with the range of the byte after it.
theorem lead_three {high middle : Nat} (hhigh : high < 16) (hmiddle : middle < 64)
    (hlow : high = 0 → 32 ≤ middle) (hsurrogate : high = 13 → middle < 32) :
    ∃ lower upper hs, lead (high + 0xE0) = ([], .two lower upper high hs) ∧
      lower ≤ middle + 0x80 ∧ middle + 0x80 ≤ upper := by
  by_cases hzero : high = 0
  · subst hzero
    exact ⟨0xA0, 0xBF, by omega, rfl, by omega, by omega⟩
  · by_cases hthirteen : high = 13
    · subst hthirteen
      exact ⟨0x80, 0x9F, by omega, rfl, by omega, by omega⟩
    · refine ⟨0x80, 0xBF, by omega, ?_, by omega, by omega⟩
      rw [lead, if_neg (by omega), dif_neg (by omega), if_neg (by omega), if_neg (by omega),
        dif_pos (by omega)]
      simp only [Nat.add_sub_cancel]

theorem lead_four {high middle : Nat} (hhigh : high ≤ 4) (hmiddle : middle < 64)
    (hlow : high = 0 → 16 ≤ middle) (hlast : high = 4 → middle < 16) :
    ∃ lower upper hs, lead (high + 0xF0) = ([], .three lower upper high hs) ∧
      lower ≤ middle + 0x80 ∧ middle + 0x80 ≤ upper := by
  by_cases hzero : high = 0
  · subst hzero
    exact ⟨0x90, 0xBF, by omega, rfl, by omega, by omega⟩
  · by_cases hfour : high = 4
    · subst hfour
      exact ⟨0x80, 0x8F, by omega, rfl, by omega, by omega⟩
    · refine ⟨0x80, 0xBF, by omega, ?_, by omega, by omega⟩
      rw [lead, if_neg (by omega), dif_neg (by omega), if_neg (by omega), if_neg (by omega),
        dif_neg (by omega), if_neg (by omega), if_neg (by omega), dif_pos (by omega)]
      simp only [Nat.add_sub_cancel]

theorem feed_one {bits low : Nat} (h : Short bits) (hlow : low < 64) :
    feed (.one bits h) (low + 0x80) = ([Char.ofNat (bits * 64 + low)], .start) := by
  rw [feed, if_pos (by omega), Nat.add_sub_cancel]

theorem feed_two {lower upper bits middle : Nat} (h) (hlower : lower ≤ middle + 0x80)
    (hupper : middle + 0x80 ≤ upper) :
    ∃ hs, feed (.two lower upper bits h) (middle + 0x80) =
      ([], .one (bits * 64 + middle) hs) := by
  refine ⟨by unfold Short; omega, ?_⟩
  rw [feed, dif_pos (by omega)]
  simp only [Nat.add_sub_cancel]

theorem feed_three {lower upper bits middle : Nat} (h) (hlower : lower ≤ middle + 0x80)
    (hupper : middle + 0x80 ≤ upper) :
    ∃ hs, feed (.three lower upper bits h) (middle + 0x80) =
      ([], .two 0x80 0xBF (bits * 64 + middle) hs) := by
  refine ⟨by omega, ?_⟩
  rw [feed, dif_pos (by omega)]
  simp only [Nat.add_sub_cancel]

theorem one_ne_start {bits : Nat} (h : Short bits) : State.one bits h ≠ .start := nofun

theorem two_ne_start {lower upper bits : Nat} (h) : State.two lower upper bits h ≠ .start := nofun

theorem three_ne_start {lower upper bits : Nat} (h) :
    State.three lower upper bits h ≠ .start := nofun

-- The bytes of a character give it.
theorem gives_encodeChar (c : Char) : Gives c .start (String.utf8EncodeChar c) := by
  have hvalid : c.val.toNat < 0xD800 ∨ (0xDFFF < c.val.toNat ∧ c.val.toNat < 0x110000) := c.valid
  have hc : Char.ofNat c.val.toNat = c := Char.ofNat_toNat c
  unfold String.utf8EncodeChar
  simp only
  generalize c.val.toNat = value at hvalid hc
  have hlow : (UInt8.ofNat (value % 64 + 0x80)).toNat = value % 64 + 0x80 :=
    toNat_ofNat_byte (by omega)
  have hmiddle : (UInt8.ofNat (value / 64 % 64 + 0x80)).toNat = value / 64 % 64 + 0x80 :=
    toNat_ofNat_byte (by omega)
  have hhigh : (UInt8.ofNat (value / 4096 % 64 + 0x80)).toNat = value / 4096 % 64 + 0x80 :=
    toNat_ofNat_byte (by omega)
  -- the last byte completes the six bits before it
  have hlast : ∀ {bits} (hs : Short bits), bits * 64 + value % 64 = value →
      Gives c (.one bits hs) [UInt8.ofNat (value % 64 + 0x80)] := by
    intro bits hs hvalue
    refine .last ?_
    rw [hlow, feed_one hs (by omega), hvalue, hc]
  split
  · refine .last ?_
    rw [toNat_ofNat_byte (by omega), feed, lead_of_lt (by omega), hc]
  split
  · obtain ⟨hs, hlead⟩ := @lead_two (value / 64 % 32) (by omega)
    have hfirst : feed .start (UInt8.ofNat (value / 64 % 32 + 0xC0)).toNat =
        ([], .one (value / 64 % 32) hs) := by
      rw [toNat_ofNat_byte (by omega)]
      exact hlead
    exact .more hfirst (one_ne_start hs) (by omega) (hlast hs (by omega))
  split
  · obtain ⟨lower, upper, hs, hlead, hlower, hupper⟩ := @lead_three (value / 4096 % 16)
      (value / 64 % 64) (by omega) (by omega) (by omega) (by omega)
    obtain ⟨hs', hfeed⟩ := feed_two hs hlower hupper
    have hfirst : feed .start (UInt8.ofNat (value / 4096 % 16 + 0xE0)).toNat =
        ([], .two lower upper (value / 4096 % 16) hs) := by
      rw [toNat_ofNat_byte (by omega)]
      exact hlead
    rw [← hmiddle] at hfeed
    exact .more hfirst (two_ne_start hs) (by omega)
      (.more hfeed (one_ne_start hs') (by omega) (hlast hs' (by omega)))
  · obtain ⟨lower, upper, hs, hlead, hlower, hupper⟩ := @lead_four (value / 262144 % 8)
      (value / 4096 % 64) (by omega) (by omega) (by omega) (by omega)
    obtain ⟨hs', hfeed⟩ := feed_three hs hlower hupper
    obtain ⟨hs'', hfeed'⟩ := @feed_two _ _ _ (value / 64 % 64) hs' (by omega) (by omega)
    have hfirst : feed .start (UInt8.ofNat (value / 262144 % 8 + 0xF0)).toNat =
        ([], .three lower upper (value / 262144 % 8) hs) := by
      rw [toNat_ofNat_byte (by omega)]
      exact hlead
    rw [← hhigh] at hfeed
    rw [← hmiddle] at hfeed'
    exact .more hfirst (three_ne_start hs) (by omega) (.more hfeed (two_ne_start hs') (by omega)
      (.more hfeed' (one_ne_start hs'') (by omega) (hlast hs'' (by omega))))

end Encoder

section Decoded

theorem Gives.decoded {c : Char} {state : State} {bytes : List UInt8} (h : Gives c state bytes)
    (rest : List (Option UInt8)) :
    decodeFrom state (bytes.map some ++ rest) = c :: decodeFrom .start rest := by
  induction h with
  | last hfeed =>
      rw [List.map_cons, List.map_nil, List.cons_append, List.nil_append, Utf8.decodeFrom, hfeed]
      rfl
  | more hfeed _ _ _ ih =>
      rw [List.map_cons, List.cons_append, Utf8.decodeFrom, hfeed]
      exact ih

theorem Gives.after_append {c : Char} {state : State} {bytes : List UInt8} (h : Gives c state bytes)
    (rest : List UInt8) : after state (bytes ++ rest) = Utf8.after .start rest := by
  induction h with
  | last hfeed => rw [List.cons_append, List.nil_append, Utf8.after, hfeed]
  | more hfeed _ _ _ ih =>
      rw [List.cons_append, Utf8.after, hfeed]
      exact ih

-- Before its last byte the character is not complete.
theorem Gives.after_ne_start {c : Char} {state : State} {bytes : List UInt8}
    (h : Gives c state bytes) {first second : List UInt8} (hbytes : bytes = first ++ second)
    (hfirst : first ≠ []) (hsecond : second ≠ []) : Utf8.after state first ≠ .start := by
  induction h generalizing first with
  | last hfeed =>
      cases first with
      | nil => exact absurd rfl hfirst
      | cons byte first =>
          obtain ⟨_, hnil⟩ := List.cons.inj hbytes
          exact absurd (List.append_eq_nil_iff.mp hnil.symm).2 hsecond
  | more hfeed hnext _ _ ih =>
      cases first with
      | nil => exact absurd rfl hfirst
      | cons byte first =>
          obtain ⟨rfl, hrest⟩ := List.cons.inj hbytes
          rw [Utf8.after, hfeed]
          cases first with
          | nil => exact hnext
          | cons other first => exact ih hrest (List.cons_ne_nil _ _)

theorem decodeFrom_encode (text : List Char) (rest : List (Option UInt8)) :
    decodeFrom .start ((encode text).map some ++ rest) = text ++ decodeFrom .start rest := by
  induction text with
  | nil => rfl
  | cons c text ih =>
      rw [encode_cons, List.map_append, List.append_assoc, (gives_encodeChar c).decoded, ih]
      rfl

-- What was encoded is decoded as it was.
theorem decode_encode (text : List Char) : decode (encode text) = text := by
  have hdecode := decodeFrom_encode text []
  rwa [List.append_nil, show decodeFrom .start [] = [] from rfl, List.append_nil] at hdecode

theorem after_encode (text : List Char) : after .start (encode text) = .start := by
  induction text with
  | nil => rfl
  | cons c text ih => rw [encode_cons, (gives_encodeChar c).after_append, ih]

-- The bytes of a text.
def Valid (bytes : List UInt8) : Prop := ∃ text, bytes = encode text

-- The part of an encoded text that ends with a character is itself encoded.
theorem valid_of_after {text : List Char} {first second : List UInt8}
    (h : encode text = first ++ second) (hafter : after .start first = .start) :
    Valid first := by
  induction text generalizing first with
  | nil => exact ⟨[], (List.append_eq_nil_iff.mp h.symm).1⟩
  | cons c text ih =>
      by_cases hnil : first = []
      · exact ⟨[], hnil⟩
      rcases List.append_eq_append_iff.mp h with ⟨rest, rfl, hrest⟩ | ⟨rest, hbytes, _⟩
      · rw [(gives_encodeChar c).after_append] at hafter
        obtain ⟨start, rfl⟩ := ih hrest hafter
        exact ⟨c :: start, rfl⟩
      · by_cases hrest : rest = []
        · rw [hrest, List.append_nil] at hbytes
          exact ⟨[c], by rw [encode_cons, hbytes]; simp⟩
        · exact absurd hafter ((gives_encodeChar c).after_ne_start hbytes hnil hrest)

end Decoded

section Cuts

-- No piece of a text ends inside of a character.
def Whole (stream : List (Option UInt8)) : Prop :=
  ∀ first second, stream = first ++ none :: second → after .start (bytesOf first) = .start

theorem Whole.decoded {stream : List (Option UInt8)} (h : Whole stream) :
    decodeFrom .start stream = decode (bytesOf stream) := by
  rcases decodeFrom_eq_or_cut .start stream with hwhole | ⟨first, second, hcut, hafter⟩
  · exact hwhole
  · exact absurd (h first second hcut) hafter

theorem Whole.cons_none {stream : List (Option UInt8)} (h : Whole stream) :
    Whole (none :: stream) := by
  intro first second hcut
  cases first with
  | nil => rfl
  | cons symbol first =>
      obtain ⟨rfl, hrest⟩ := List.cons.inj hcut
      exact h first second hrest

theorem Whole.append {c : Char} {bytes : List UInt8} (hbytes : Gives c .start bytes)
    {stream : List (Option UInt8)} (h : Whole stream) : Whole (bytes.map some ++ stream) := by
  intro first second hcut
  rcases List.append_eq_append_iff.mp hcut with ⟨rest, rfl, hrest⟩ | ⟨rest, hmap, hrest⟩
  · rw [bytesOf_append, bytesOf_map_some, hbytes.after_append]
    exact h rest second hrest
  · cases rest with
    | nil =>
        rw [List.append_nil] at hmap
        rw [← hmap, bytesOf_map_some, ← List.append_nil bytes, hbytes.after_append]
        rfl
    | cons symbol rest =>
        obtain ⟨rfl, _⟩ := List.cons.inj hrest
        have hnone : (none : Option UInt8) ∈ bytes.map some := by
          rw [hmap]
          exact List.mem_append_right _ List.mem_cons_self
        simp at hnone

def Continues (byte : UInt8) : Prop := 0x80 ≤ byte.toNat ∧ byte.toNat ≤ 0xBF

theorem Gives.continues {c : Char} {state : State} {byte : UInt8} {bytes : List UInt8}
    (h : Gives c state (byte :: bytes)) : ∀ other ∈ bytes, Continues other := by
  generalize hall : byte :: bytes = all at h
  induction h generalizing byte bytes with
  | last hfeed =>
      obtain ⟨_, rfl⟩ := List.cons.inj hall
      nofun
  | more hfeed hnext hcontinues _ ih =>
      obtain ⟨_, rfl⟩ := List.cons.inj hall
      intro other ho
      rcases List.mem_cons.mp ho with rfl | ho
      · exact hcontinues
      · exact ih rfl other ho

theorem feed_continues {byte : UInt8} (h : Continues byte) :
    feed .start byte.toNat = ([replacement], .start) := by
  obtain ⟨hlow, hhigh⟩ := h
  rw [feed, lead, if_neg (by omega), dif_neg (by omega), if_neg (by omega), if_neg (by omega),
    dif_neg (by omega), if_neg (by omega), if_neg (by omega), dif_neg (by omega)]

-- The bytes that were to follow, by themselves.
theorem decodeFrom_continues {bytes : List UInt8} (h : ∀ byte ∈ bytes, Continues byte)
    {stream : List (Option UInt8)} {more : List UInt8} (hstream : bytesOf stream = bytes ++ more) :
    ∃ back, bytesOf back = more ∧ decodeFrom .start stream =
      List.replicate bytes.length replacement ++ decodeFrom .start back := by
  induction stream generalizing bytes with
  | nil =>
      obtain ⟨rfl, rfl⟩ := List.append_eq_nil_iff.mp hstream.symm
      exact ⟨[], rfl, rfl⟩
  | cons symbol stream ih =>
      cases symbol with
      | none => exact ih h hstream
      | some byte =>
          cases bytes with
          | nil => exact ⟨some byte :: stream, hstream, rfl⟩
          | cons first bytes =>
              obtain ⟨rfl, hrest⟩ := List.cons.inj hstream
              obtain ⟨back, hback, htext⟩ :=
                ih (fun other ho => h other (List.mem_cons_of_mem _ ho)) hrest
              refine ⟨back, hback, ?_⟩
              rw [decodeFrom, feed_continues (h byte List.mem_cons_self), htext]
              rfl

theorem flush_of_ne_start {state : State} (h : state ≠ .start) : flush state = [replacement] := by
  cases state with
  | start => exact absurd rfl h
  | one | two | three => rfl

-- A character that comes in pieces is two replacement characters at least.
theorem decodeFrom_cut {state : State} (hstate : state ≠ .start) {bytes : List UInt8}
    (hne : bytes ≠ []) (hbytes : ∀ byte ∈ bytes, Continues byte)
    {stream : List (Option UInt8)} {more : List UInt8} (hstream : bytesOf stream = bytes ++ more) :
    ∃ back text, bytesOf back = more ∧
      decodeFrom state (none :: stream) = text ++ decodeFrom .start back ∧
      2 ≤ text.count replacement := by
  obtain ⟨back, hback, htext⟩ := decodeFrom_continues hbytes hstream
  refine ⟨back, replacement :: List.replicate bytes.length replacement, hback, ?_, ?_⟩
  · rw [decodeFrom, flush_of_ne_start hstate, htext]
    rfl
  · have hpos := List.length_pos_iff.mpr hne
    rw [List.count_cons_self, List.count_replicate_self]
    omega

-- The stream goes on with the bytes as they are, or with their character in pieces.
def WholeOrCut (state : State) (bytes : List UInt8) (stream : List (Option UInt8))
    (more : List UInt8) : Prop :=
  ∃ back, bytesOf back = more ∧ (stream = bytes.map some ++ back ∨
    ∃ text, decodeFrom state stream = text ++ decodeFrom .start back ∧
      2 ≤ text.count replacement)

theorem wholeOrCut_none {state : State} (hstate : state ≠ .start) {bytes : List UInt8}
    (hne : bytes ≠ []) (hbytes : ∀ byte ∈ bytes, Continues byte)
    {stream : List (Option UInt8)} {more : List UInt8}
    (hstream : bytesOf stream = bytes ++ more) :
    WholeOrCut state bytes (none :: stream) more := by
  obtain ⟨back, text, hback, hcut⟩ := decodeFrom_cut hstate hne hbytes hstream
  exact ⟨back, hback, Or.inr ⟨text, hcut⟩⟩

theorem WholeOrCut.feed {state next : State} {byte : UInt8} {bytes : List UInt8}
    {stream : List (Option UInt8)} {more : List UInt8}
    (hfeed : Utf8.feed state byte.toNat = ([], next)) (h : WholeOrCut next bytes stream more) :
    WholeOrCut state (byte :: bytes) (some byte :: stream) more := by
  obtain ⟨back, hback, rfl | ⟨text, htext, hcount⟩⟩ := h
  · exact ⟨back, hback, Or.inl rfl⟩
  · refine ⟨back, hback, Or.inr ⟨text, ?_, hcount⟩⟩
    rw [decodeFrom, hfeed]
    exact htext

-- A stream comes with its first byte, or is cut before it.
theorem cons_of_bytesOf_eq {stream : List (Option UInt8)} {byte : UInt8} {bytes : List UInt8}
    (h : bytesOf stream = byte :: bytes) :
    (∃ rest, stream = none :: rest) ∨ ∃ rest, stream = some byte :: rest ∧ bytesOf rest = bytes := by
  cases stream with
  | nil => cases h
  | cons symbol rest =>
      cases symbol with
      | none => exact Or.inl ⟨rest, rfl⟩
      | some first =>
          obtain ⟨rfl, hrest⟩ := List.cons.inj h
          exact Or.inr ⟨rest, rfl, hrest⟩

theorem Gives.whole_or_cut {c : Char} {state : State} {bytes : List UInt8}
    (h : Gives c state bytes) (hstate : state ≠ .start) (hbytes : ∀ byte ∈ bytes, Continues byte)
    {stream : List (Option UInt8)} {more : List UInt8} (hstream : bytesOf stream = bytes ++ more) :
    WholeOrCut state bytes stream more := by
  induction h generalizing stream with
  | last hfeed =>
      rcases cons_of_bytesOf_eq hstream with ⟨rest, rfl⟩ | ⟨rest, rfl, hrest⟩
      · exact wholeOrCut_none hstate (List.cons_ne_nil _ _) hbytes hstream
      · exact ⟨rest, hrest, Or.inl rfl⟩
  | more hfeed hnext _ _ ih =>
      rcases cons_of_bytesOf_eq hstream with ⟨rest, rfl⟩ | ⟨rest, rfl, hrest⟩
      · exact wholeOrCut_none hstate (List.cons_ne_nil _ _) hbytes hstream
      · exact .feed hfeed (ih hnext (fun last hl => hbytes last (List.mem_cons_of_mem _ hl)) hrest)

theorem Gives.front {c : Char} {bytes : List UInt8} (h : Gives c .start bytes) {byte : UInt8}
    {stream : List (Option UInt8)} {more : List UInt8}
    (hstream : byte :: bytesOf stream = bytes ++ more) :
    WholeOrCut .start bytes (some byte :: stream) more := by
  have hcontinues : ∀ {first rest}, bytes = first :: rest → ∀ other ∈ rest, Continues other := by
    rintro first rest rfl
    exact h.continues
  cases h with
  | last hfeed =>
      obtain ⟨rfl, hrest⟩ := List.cons.inj hstream
      exact ⟨stream, hrest, Or.inl rfl⟩
  | more hfeed hnext _ hgives =>
      obtain ⟨rfl, hrest⟩ := List.cons.inj hstream
      exact .feed hfeed (hgives.whole_or_cut hnext (hcontinues rfl) hrest)

-- No replacement character is lost, and where there are no more of them the text was not
-- cut inside of a character.
theorem count_replacement {text : List Char} {stream : List (Option UInt8)}
    (h : bytesOf stream = encode text) :
    text.count replacement ≤ (decodeFrom .start stream).count replacement ∧
      ((decodeFrom .start stream).count replacement = text.count replacement → Whole stream) := by
  induction text generalizing stream with
  | nil =>
      refine ⟨Nat.zero_le _, fun _ first second hcut => ?_⟩
      rw [hcut, bytesOf_append] at h
      rw [(List.append_eq_nil_iff.mp h).1]
      rfl
  | cons c text ih =>
      induction stream with
      | nil => exact absurd (List.append_eq_nil_iff.mp h.symm).1 String.utf8EncodeChar_ne_nil
      | cons symbol stream ihstream =>
          cases symbol with
          | none =>
              obtain ⟨hle, hwhole⟩ := ihstream h
              exact ⟨hle, fun heq => (hwhole heq).cons_none⟩
          | some byte =>
              have hgives := gives_encodeChar c
              obtain ⟨back, hback, hfront⟩ := hgives.front h
              obtain ⟨hle, hwhole⟩ := ih hback
              rcases hfront with hmap | ⟨front, hfront, htwo⟩
              · rw [hmap, hgives.decoded, List.count_cons, List.count_cons]
                exact ⟨by omega, fun heq => (hwhole (by omega)).append hgives⟩
              · have hone : [c].count replacement ≤ 1 := List.count_le_length
                have hcons : (c :: text).count replacement =
                    [c].count replacement + text.count replacement := by
                  rw [← List.count_append]
                  rfl
                rw [hfront, List.count_append, hcons]
                exact ⟨by omega, fun heq => by omega⟩

end Cuts

end OpenBalenaVpn.Utf8
