import OpenBalenaVpn.Foundation.Http
import Mathlib.Data.List.Infix

namespace OpenBalenaVpn.Utf8

def replacement : Char := Char.ofNat 0xFFFD

section Decoder

-- The bits before the last six of a scalar value with more than seven.
def Short (bits : Nat) : Prop := 2 ≤ bits ∧ (bits < 864 ∨ (896 ≤ bits ∧ bits < 17408))

-- A decoder inside of a sequence: the bits so far, and the range of the next byte where
-- it is not the last one.
inductive State where
  | start
  | one (bits : Nat) (h : Short bits)
  | two (lower upper bits : Nat)
      (h : 0x80 ≤ lower ∧ 2 ≤ bits * 64 + (lower - 0x80) ∧
        (bits * 64 + (upper - 0x80) < 864 ∨
          (896 ≤ bits * 64 ∧ bits * 64 + (upper - 0x80) < 17408)))
  | three (lower upper bits : Nat)
      (h : 0x80 ≤ lower ∧ 14 ≤ bits * 64 + (lower - 0x80) ∧ bits * 64 + (upper - 0x80) < 272)

-- What the decoder makes of a byte that does not go on with a sequence.
def lead (byte : Nat) : List Char × State :=
  if byte < 0x80 then ([Char.ofNat byte], .start)
  else if h : 0xC2 ≤ byte ∧ byte ≤ 0xDF then
    ([], .one (byte - 0xC0) (by unfold Short; omega))
  else if byte = 0xE0 then ([], .two 0xA0 0xBF 0 (by omega))
  else if byte = 0xED then ([], .two 0x80 0x9F 13 (by omega))
  else if h : (0xE1 ≤ byte ∧ byte ≤ 0xEC) ∨ (0xEE ≤ byte ∧ byte ≤ 0xEF) then
    ([], .two 0x80 0xBF (byte - 0xE0) (by omega))
  else if byte = 0xF0 then ([], .three 0x90 0xBF 0 (by omega))
  else if byte = 0xF4 then ([], .three 0x80 0x8F 4 (by omega))
  else if h : 0xF1 ≤ byte ∧ byte ≤ 0xF3 then ([], .three 0x80 0xBF (byte - 0xF0) (by omega))
  else ([replacement], .start)

-- A sequence that does not go on is one replacement character.
def restart (byte : Nat) : List Char × State := (replacement :: (lead byte).1, (lead byte).2)

def feed (state : State) (byte : Nat) : List Char × State :=
  match state with
  | .start => lead byte
  | .one bits _ =>
      if 0x80 ≤ byte ∧ byte ≤ 0xBF then ([Char.ofNat (bits * 64 + (byte - 0x80))], .start)
      else restart byte
  | .two lower upper bits h =>
      if hb : lower ≤ byte ∧ byte ≤ upper then
        ([], .one (bits * 64 + (byte - 0x80)) (by unfold Short; omega))
      else restart byte
  | .three lower upper bits h =>
      if hb : lower ≤ byte ∧ byte ≤ upper then
        ([], .two 0x80 0xBF (bits * 64 + (byte - 0x80)) (by omega))
      else restart byte

def flush : State → List Char
  | .start => []
  | _ => [replacement]

-- A text that comes in pieces: the bytes, and a none where a piece ends. Each piece is
-- decoded by itself.
def decodeFrom : State → List (Option UInt8) → List Char
  | state, [] => flush state
  | state, none :: rest => flush state ++ decodeFrom .start rest
  | state, some byte :: rest =>
      (feed state byte.toNat).1 ++ decodeFrom (feed state byte.toNat).2 rest

-- `buffer.toString()`
def decode (bytes : List UInt8) : List Char := decodeFrom .start (bytes.map some)

-- The state after some bytes, and the characters that are complete by then.
def after : State → List UInt8 → State
  | state, [] => state
  | state, byte :: rest => after (feed state byte.toNat).2 rest

def emitted : State → List UInt8 → List Char
  | _, [] => []
  | state, byte :: rest => (feed state byte.toNat).1 ++ emitted (feed state byte.toNat).2 rest

end Decoder

section Ascii

theorem lead_of_lt {byte : Nat} (h : byte < 0x80) : lead byte = ([Char.ofNat byte], .start) :=
  if_pos h

-- An ASCII byte is a character of its own, in every state.
theorem feed_of_lt (state : State) {byte : Nat} (h : byte < 0x80) :
    feed state byte = (flush state ++ [Char.ofNat byte], .start) := by
  have hrestart : restart byte = ([replacement, Char.ofNat byte], .start) := by
    rw [restart, lead_of_lt h]
  cases state with
  | start => exact lead_of_lt h
  | one bits hbits =>
      rw [feed, if_neg (by omega)]
      exact hrestart
  | two lower upper bits hbits =>
      rw [feed, dif_neg (by omega)]
      exact hrestart
  | three lower upper bits hbits =>
      rw [feed, dif_neg (by omega)]
      exact hrestart

theorem toNat_replacement : replacement.toNat = 0xFFFD := by decide

theorem high_of_mem_flush {state : State} {c : Char} (h : c ∈ flush state) :
    c = replacement := by
  cases state with
  | start => cases h
  | one bits hbits => exact List.mem_singleton.mp h
  | two lower upper bits hbits => exact List.mem_singleton.mp h
  | three lower upper bits hbits => exact List.mem_singleton.mp h

theorem high_of_mem_lead {byte : Nat} (hbyte : 0x80 ≤ byte) {c : Char}
    (h : c ∈ (lead byte).1) : c = replacement := by
  unfold lead at h
  rw [if_neg (by omega)] at h
  split at h
  · cases h
  split at h
  · cases h
  split at h
  · cases h
  split at h
  · cases h
  split at h
  · cases h
  split at h
  · cases h
  split at h
  · cases h
  · exact List.mem_singleton.mp h

theorem toNat_ofNat_of_valid {value : Nat} (h : value.isValidChar) :
    (Char.ofNat value).toNat = value := by
  rw [Char.ofNat, dif_pos h]
  rfl

theorem toNat_ofNat_of_lt {value : Nat} (h : value < 0x80) : (Char.ofNat value).toNat = value :=
  toNat_ofNat_of_valid (Or.inl (by omega))

theorem toNat_short {bits byte : Nat} (hbits : Short bits) (hlow : 0x80 ≤ byte)
    (hhigh : byte ≤ 0xBF) : 0x80 ≤ (Char.ofNat (bits * 64 + (byte - 0x80))).toNat := by
  have hvalid : Nat.isValidChar (bits * 64 + (byte - 0x80)) := by
    unfold Short at hbits
    unfold Nat.isValidChar
    omega
  rw [toNat_ofNat_of_valid hvalid]
  unfold Short at hbits
  omega

theorem high_of_mem_restart {byte : Nat} (hbyte : 0x80 ≤ byte) {c : Char}
    (h : c ∈ (restart byte).1) : c = replacement := by
  rcases List.mem_cons.mp h with rfl | hm
  · rfl
  · exact high_of_mem_lead hbyte hm

-- A byte that is not ASCII gives no ASCII character.
theorem high_of_mem_feed {state : State} {byte : Nat} (hbyte : 0x80 ≤ byte) {c : Char}
    (h : c ∈ (feed state byte).1) : 0x80 ≤ c.toNat := by
  have hreplacement : ∀ c, c = replacement → 0x80 ≤ c.toNat := by
    rintro c rfl
    rw [toNat_replacement]
    omega
  cases state with
  | start => exact hreplacement c (high_of_mem_lead hbyte h)
  | one bits hbits =>
      by_cases hrange : 0x80 ≤ byte ∧ byte ≤ 0xBF
      · rw [feed, if_pos hrange] at h
        rw [List.mem_singleton.mp h]
        exact toNat_short hbits hrange.1 hrange.2
      · rw [feed, if_neg hrange] at h
        exact hreplacement c (high_of_mem_restart hbyte h)
  | two lower upper bits hbits =>
      by_cases hrange : lower ≤ byte ∧ byte ≤ upper
      · rw [feed, dif_pos hrange] at h
        cases h
      · rw [feed, dif_neg hrange] at h
        exact hreplacement c (high_of_mem_restart hbyte h)
  | three lower upper bits hbits =>
      by_cases hrange : lower ≤ byte ∧ byte ≤ upper
      · rw [feed, dif_pos hrange] at h
        cases h
      · rw [feed, dif_neg hrange] at h
        exact hreplacement c (high_of_mem_restart hbyte h)

theorem decodeFrom_append_of_lt (state : State) (before : List (Option UInt8)) {byte : UInt8}
    (h : byte.toNat < 0x80) (rest : List (Option UInt8)) :
    decodeFrom state (before ++ some byte :: rest) =
      decodeFrom state before ++ Char.ofNat byte.toNat :: decodeFrom .start rest := by
  induction before generalizing state with
  | nil =>
      simp only [List.nil_append, decodeFrom, feed_of_lt state h, List.append_assoc]
      rfl
  | cons symbol before ih =>
      cases symbol with
      | none => simp only [List.cons_append, decodeFrom, ih, List.append_assoc]
      | some other => simp only [List.cons_append, decodeFrom, ih, List.append_assoc]

-- Characters that are not ASCII stand before an ASCII character, not around it.
theorem append_eq_append_of_high {first before text rest : List Char} {c : Char}
    (hc : c.toNat < 0x80) (hfirst : ∀ other ∈ first, 0x80 ≤ other.toNat)
    (h : first ++ text = before ++ c :: rest) :
    ∃ later, before = first ++ later ∧ text = later ++ c :: rest := by
  induction first generalizing before with
  | nil => exact ⟨before, rfl, h⟩
  | cons other first ih =>
      cases before with
      | nil =>
          obtain ⟨rfl, _⟩ := List.cons.inj h
          have hhigh := hfirst other List.mem_cons_self
          omega
      | cons another before =>
          obtain ⟨rfl, htail⟩ := List.cons.inj h
          obtain ⟨later, rfl, htext⟩ :=
            ih (fun last hl => hfirst last (List.mem_cons_of_mem _ hl)) htail
          exact ⟨later, rfl, htext⟩

theorem high_flush (state : State) : ∀ c ∈ flush state, 0x80 ≤ c.toNat := by
  intro c hc
  rw [high_of_mem_flush hc, toNat_replacement]
  omega

-- An ASCII character in the text stands for a byte of its own.
theorem decodeFrom_eq_append {state : State} {stream : List (Option UInt8)}
    {before rest : List Char} {c : Char} (hc : c.toNat < 0x80)
    (h : decodeFrom state stream = before ++ c :: rest) :
    ∃ first byte second, stream = first ++ some byte :: second ∧ byte.toNat = c.toNat ∧
      decodeFrom state first = before ∧ decodeFrom .start second = rest := by
  induction stream generalizing state before with
  | nil =>
      have hmem : c ∈ flush state := by
        rw [show flush state = before ++ c :: rest from h]
        simp
      have hhigh := high_flush state c hmem
      omega
  | cons symbol stream ih =>
      cases symbol with
      | none =>
          obtain ⟨later, rfl, hlater⟩ := append_eq_append_of_high hc (high_flush state) h
          obtain ⟨first, byte, second, rfl, hbyte, hfirst, hsecond⟩ := ih hlater
          exact ⟨none :: first, byte, second, rfl, hbyte, by rw [decodeFrom, hfirst], hsecond⟩
      | some byte =>
          by_cases hlow : byte.toNat < 0x80
          · rw [decodeFrom, feed_of_lt state hlow, List.append_assoc] at h
            obtain ⟨later, rfl, hlater⟩ := append_eq_append_of_high hc (high_flush state) h
            cases later with
            | nil =>
                obtain ⟨rfl, hrest⟩ := List.cons.inj hlater
                exact ⟨[], byte, stream, rfl, (toNat_ofNat_of_lt hlow).symm,
                  (List.append_nil _).symm, hrest⟩
            | cons other later =>
                obtain ⟨rfl, htail⟩ := List.cons.inj hlater
                obtain ⟨first, last, second, rfl, hbyte, hfirst, hsecond⟩ := ih htail
                refine ⟨some byte :: first, last, second, rfl, hbyte, ?_, hsecond⟩
                rw [decodeFrom, feed_of_lt state hlow, hfirst, List.append_assoc]
                rfl
          · obtain ⟨later, rfl, hlater⟩ := append_eq_append_of_high hc
              (fun other ho => high_of_mem_feed (by omega) ho) h
            obtain ⟨first, last, second, rfl, hbyte, hfirst, hsecond⟩ := ih hlater
            exact ⟨some byte :: first, last, second, rfl, hbyte, by rw [decodeFrom, hfirst],
              hsecond⟩

end Ascii

section Pieces

-- The bytes of a text that comes in pieces.
def bytesOf (stream : List (Option UInt8)) : List UInt8 := stream.filterMap id

@[simp] theorem bytesOf_map_some (bytes : List UInt8) : bytesOf (bytes.map some) = bytes := by
  simp [bytesOf]

@[simp] theorem bytesOf_append (first second : List (Option UInt8)) :
    bytesOf (first ++ second) = bytesOf first ++ bytesOf second := List.filterMap_append

@[simp] theorem bytesOf_none (stream : List (Option UInt8)) :
    bytesOf (none :: stream) = bytesOf stream := rfl

@[simp] theorem bytesOf_some (byte : UInt8) (stream : List (Option UInt8)) :
    bytesOf (some byte :: stream) = byte :: bytesOf stream := rfl

-- The stream of a list of chunks.
def marked (chunks : List (List UInt8)) : List (Option UInt8) :=
  chunks.flatMap fun chunk => chunk.map some ++ [none]

theorem bytesOf_marked (chunks : List (List UInt8)) : bytesOf (marked chunks) = chunks.flatten := by
  induction chunks with
  | nil => rfl
  | cons chunk chunks ih =>
      rw [marked, List.flatMap_cons, bytesOf_append, bytesOf_append, bytesOf_map_some,
        List.flatten_cons]
      change chunk ++ [] ++ bytesOf (marked chunks) = _
      rw [ih, List.append_nil]

theorem marked_append (before : List (List UInt8)) (chunk : List UInt8)
    (rest : List (List UInt8)) : marked (before ++ chunk :: rest) =
      marked before ++ chunk.map some ++ none :: marked rest := by
  simp [marked]

-- The marks stand between the chunks.
theorem exists_of_mark {chunks : List (List UInt8)} {first second : List (Option UInt8)}
    (h : marked chunks = first ++ none :: second) :
    ∃ before chunk rest, chunks = before ++ chunk :: rest ∧
      bytesOf first = before.flatten ++ chunk := by
  induction chunks generalizing first with
  | nil => exact absurd h (by simp [marked])
  | cons chunk chunks ih =>
      have hmarked : chunk.map some ++ none :: marked chunks = first ++ none :: second := by
        rw [← h]
        exact (marked_append [] chunk chunks).symm
      rcases List.append_eq_append_iff.mp hmarked with ⟨more, rfl, hmore⟩ | ⟨more, hfirst, hmore⟩
      · cases more with
        | nil => exact ⟨[], chunk, chunks, rfl, by simp⟩
        | cons symbol more =>
            obtain ⟨rfl, hrest⟩ := List.cons.inj hmore
            obtain ⟨before, last, rest, rfl, hbytes⟩ := ih hrest
            refine ⟨chunk :: before, last, rest, rfl, ?_⟩
            rw [bytesOf_append, bytesOf_map_some, bytesOf_none, hbytes, List.flatten_cons,
              List.append_assoc]
      · cases more with
        | nil =>
            rw [List.append_nil] at hfirst
            exact ⟨[], chunk, chunks, rfl, by rw [← hfirst]; simp⟩
        | cons symbol more =>
            obtain ⟨rfl, _⟩ := List.cons.inj hmore
            have hnone : (none : Option UInt8) ∈ chunk.map some := by
              rw [hfirst]
              exact List.mem_append_right _ List.mem_cons_self
            simp at hnone

theorem decodeFrom_append_none (state : State) (first rest : List (Option UInt8)) :
    decodeFrom state (first ++ none :: rest) =
      decodeFrom state first ++ decodeFrom .start rest := by
  induction first generalizing state with
  | nil => rfl
  | cons symbol first ih =>
      cases symbol with
      | none => simp only [List.cons_append, decodeFrom, ih, List.append_assoc]
      | some byte => simp only [List.cons_append, decodeFrom, ih, List.append_assoc]

theorem decodeFrom_marked (chunks : List (List UInt8)) :
    decodeFrom .start (marked chunks) = chunks.flatMap decode := by
  induction chunks with
  | nil => rfl
  | cons chunk chunks ih =>
      rw [marked, List.flatMap_cons, List.append_assoc, List.singleton_append,
        decodeFrom_append_none, List.flatMap_cons, ← ih]
      rfl

theorem decodeFrom_map_some_append (state : State) (bytes : List UInt8)
    (rest : List (Option UInt8)) : decodeFrom state (bytes.map some ++ rest) =
      emitted state bytes ++ decodeFrom (after state bytes) rest := by
  induction bytes generalizing state with
  | nil => rfl
  | cons byte bytes ih =>
      rw [List.map_cons, List.cons_append, decodeFrom, ih, emitted, after, List.append_assoc]

theorem decode_eq (bytes : List UInt8) :
    decode bytes = emitted .start bytes ++ flush (after .start bytes) := by
  have happend := decodeFrom_map_some_append .start bytes []
  rwa [List.append_nil] at happend

theorem decode_append (first second : List UInt8) : decode (first ++ second) =
    emitted .start first ++ decodeFrom (after .start first) (second.map some) := by
  rw [decode, List.map_append, decodeFrom_map_some_append]

theorem flush_eq_nil_iff (state : State) : flush state = [] ↔ state = .start := by
  cases state <;> simp [flush]

theorem replacement_mem_flush {state : State} (h : state ≠ .start) :
    replacement ∈ flush state := by
  cases state with
  | start => exact absurd rfl h
  | one bits hbits => exact List.mem_singleton_self _
  | two lower upper bits hbits => exact List.mem_singleton_self _
  | three lower upper bits hbits => exact List.mem_singleton_self _

-- A text is decoded as a whole where no piece ends inside of a character.
theorem decodeFrom_eq_or_cut (state : State) (stream : List (Option UInt8)) :
    decodeFrom state stream = decodeFrom state ((bytesOf stream).map some) ∨
      ∃ first second, stream = first ++ none :: second ∧
        after state (bytesOf first) ≠ .start := by
  induction stream generalizing state with
  | nil => exact Or.inl rfl
  | cons symbol stream ih =>
      cases symbol with
      | none =>
          by_cases hstate : state = .start
          · subst hstate
            rcases ih .start with hwhole | ⟨first, second, rfl, hcut⟩
            · exact Or.inl hwhole
            · exact Or.inr ⟨none :: first, second, rfl, hcut⟩
          · exact Or.inr ⟨[], stream, rfl, hstate⟩
      | some byte =>
          rcases ih (feed state byte.toNat).2 with hwhole | ⟨first, second, rfl, hcut⟩
          · refine Or.inl ?_
            rw [decodeFrom, hwhole]
            rfl
          · exact Or.inr ⟨some byte :: first, second, rfl, hcut⟩

-- A piece that ends inside of a character leaves a replacement character.
theorem replacement_mem_of_cut {state : State} {first second : List (Option UInt8)}
    (h : after state (bytesOf first) ≠ .start) :
    replacement ∈ decodeFrom state (first ++ none :: second) := by
  induction first generalizing state with
  | nil => exact List.mem_append_left _ (replacement_mem_flush h)
  | cons symbol first ih =>
      cases symbol with
      | none =>
          by_cases hstate : state = .start
          · subst hstate
            exact List.mem_append_right _ (ih h)
          · exact List.mem_append_left _ (replacement_mem_flush hstate)
      | some byte => exact List.mem_append_right _ (ih h)

-- Without bytes there is no text, and the other way round.
theorem decodeFrom_of_bytesOf_nil {stream : List (Option UInt8)} (h : bytesOf stream = []) :
    decodeFrom .start stream = [] := by
  induction stream with
  | nil => rfl
  | cons symbol stream ih =>
      cases symbol with
      | none => exact ih h
      | some byte => cases h

theorem feed_ne_start_of_nil {state : State} {byte : Nat} (h : (feed state byte).1 = []) :
    (feed state byte).2 ≠ .start := by
  have hlead : (lead byte).1 = [] → (lead byte).2 ≠ .start := by
    unfold lead
    repeat' split
    all_goals simp
  have hrestart : (restart byte).1 ≠ [] := List.cons_ne_nil _ _
  cases state with
  | start => exact hlead h
  | one bits hbits =>
      by_cases hrange : 0x80 ≤ byte ∧ byte ≤ 0xBF
      · rw [feed, if_pos hrange] at h
        cases h
      · rw [feed, if_neg hrange] at h
        exact absurd h hrestart
  | two lower upper bits hbits =>
      by_cases hrange : lower ≤ byte ∧ byte ≤ upper
      · rw [feed, dif_pos hrange]
        nofun
      · rw [feed, dif_neg hrange] at h
        exact absurd h hrestart
  | three lower upper bits hbits =>
      by_cases hrange : lower ≤ byte ∧ byte ≤ upper
      · rw [feed, dif_pos hrange]
        nofun
      · rw [feed, dif_neg hrange] at h
        exact absurd h hrestart

theorem bytesOf_of_decodeFrom_nil {state : State} {stream : List (Option UInt8)}
    (h : decodeFrom state stream = []) : state = .start ∧ bytesOf stream = [] := by
  induction stream generalizing state with
  | nil => exact ⟨(flush_eq_nil_iff state).mp h, rfl⟩
  | cons symbol stream ih =>
      cases symbol with
      | none =>
          obtain ⟨hflush, hrest⟩ := List.append_eq_nil_iff.mp h
          exact ⟨(flush_eq_nil_iff state).mp hflush, (ih hrest).2⟩
      | some byte =>
          obtain ⟨hfeed, hrest⟩ := List.append_eq_nil_iff.mp h
          exact absurd (ih hrest).1 (feed_ne_start_of_nil hfeed)

theorem exists_of_bytesOf_eq {stream : List (Option UInt8)} {before rest : List UInt8}
    {byte : UInt8} (h : bytesOf stream = before ++ byte :: rest) :
    ∃ first second, stream = first ++ some byte :: second ∧ bytesOf first = before ∧
      bytesOf second = rest := by
  induction stream generalizing before with
  | nil => simp [bytesOf] at h
  | cons symbol stream ih =>
      cases symbol with
      | none =>
          obtain ⟨first, second, rfl, hfirst, hsecond⟩ := ih h
          exact ⟨none :: first, second, rfl, hfirst, hsecond⟩
      | some other =>
          rw [bytesOf_some] at h
          cases before with
          | nil =>
              obtain ⟨rfl, hrest⟩ := List.cons.inj h
              exact ⟨[], stream, rfl, rfl, hrest⟩
          | cons another before =>
              obtain ⟨rfl, htail⟩ := List.cons.inj h
              obtain ⟨first, second, rfl, hfirst, hsecond⟩ := ih htail
              exact ⟨some other :: first, second, rfl, by rw [bytesOf_some, hfirst], hsecond⟩

end Pieces

section AsciiTexts

def IsAscii (text : List Char) : Prop := ∀ c ∈ text, c.toNat < 0x80

def asciiBytes (text : List Char) : List UInt8 := text.map fun c => UInt8.ofNat c.toNat

theorem toNat_asciiByte {c : Char} (h : c.toNat < 0x80) :
    (UInt8.ofNat c.toNat).toNat = c.toNat := by
  simp only [UInt8.toNat_ofNat']
  omega

-- An ASCII text in the text stands for its bytes, one after another.
theorem decodeFrom_eq_append_ascii {state : State} {stream : List (Option UInt8)}
    {before rest text : List Char} {c : Char} (hascii : IsAscii (c :: text))
    (h : decodeFrom state stream = before ++ (c :: text ++ rest)) :
    ∃ first middle second, stream = first ++ middle ∧
      bytesOf middle = asciiBytes (c :: text) ++ bytesOf second ∧
      decodeFrom state first = before ∧ decodeFrom .start second = rest := by
  induction text generalizing state stream before c with
  | nil =>
      obtain ⟨first, byte, second, rfl, hbyte, hfirst, hsecond⟩ :=
        decodeFrom_eq_append (hascii c List.mem_cons_self) h
      refine ⟨first, some byte :: second, second, rfl, ?_, hfirst, hsecond⟩
      rw [bytesOf_some, asciiBytes, List.map_cons, List.map_nil, ← hbyte, UInt8.ofNat_toNat]
      rfl
  | cons d text ih =>
      obtain ⟨first, byte, second, rfl, hbyte, hfirst, hsecond⟩ :=
        decodeFrom_eq_append (hascii c List.mem_cons_self) h
      obtain ⟨inner, middle, last, rfl, hmiddle, hinner, hlast⟩ := ih
        (fun other ho => hascii other (List.mem_cons_of_mem c ho))
        (show decodeFrom .start second = [] ++ (d :: text ++ rest) from hsecond)
      refine ⟨first, some byte :: (inner ++ middle), last, rfl, ?_, hfirst, hlast⟩
      rw [bytesOf_some, bytesOf_append, (bytesOf_of_decodeFrom_nil hinner).2, List.nil_append,
        hmiddle, asciiBytes, asciiBytes, @List.map_cons _ _ _ c, ← hbyte, UInt8.ofNat_toNat]
      rfl

theorem ofNat_asciiByte {c : Char} (h : c.toNat < 0x80) :
    Char.ofNat (UInt8.ofNat c.toNat).toNat = c := by
  rw [toNat_asciiByte h, Char.ofNat_toNat]

-- The bytes of an ASCII text stand for it, whatever stands around them.
theorem decodeFrom_of_bytesOf_ascii {state : State} {stream : List (Option UInt8)}
    {before rest : List UInt8} {text : List Char} {c : Char} (hascii : IsAscii (c :: text))
    (h : bytesOf stream = before ++ (asciiBytes (c :: text) ++ rest)) :
    ∃ first middle second, stream = first ++ middle ∧ bytesOf first = before ∧
      bytesOf second = rest ∧
      decodeFrom state stream =
        decodeFrom state first ++ (c :: text ++ decodeFrom .start second) := by
  have hc := hascii c List.mem_cons_self
  have hbyte : (UInt8.ofNat c.toNat).toNat < 0x80 := by
    rw [toNat_asciiByte hc]
    exact hc
  induction text generalizing state stream before c with
  | nil =>
      obtain ⟨first, second, rfl, hfirst, hsecond⟩ := exists_of_bytesOf_eq h
      refine ⟨first, some (UInt8.ofNat c.toNat) :: second, second, rfl, hfirst, hsecond, ?_⟩
      rw [decodeFrom_append_of_lt state first hbyte, ofNat_asciiByte hc]
      rfl
  | cons d text ih =>
      obtain ⟨first, second, rfl, hfirst, hsecond⟩ := exists_of_bytesOf_eq h
      have hd := hascii d (List.mem_cons_of_mem c List.mem_cons_self)
      obtain ⟨inner, middle, last, rfl, hinner, hlast, htext⟩ := @ih .start second [] d
        (fun other ho => hascii other (List.mem_cons_of_mem c ho)) hsecond hd
        (by rw [toNat_asciiByte hd]; exact hd)
      refine ⟨first, _, last, rfl, hfirst, hlast, ?_⟩
      rw [decodeFrom_append_of_lt state first hbyte, ofNat_asciiByte hc, htext,
        decodeFrom_of_bytesOf_nil hinner]
      rfl

theorem ascii_infix_iff {state : State} {stream : List (Option UInt8)} {text : List Char}
    {c : Char} (hascii : IsAscii (c :: text)) :
    c :: text <:+: decodeFrom state stream ↔ asciiBytes (c :: text) <:+: bytesOf stream := by
  constructor
  · rintro ⟨before, rest, h⟩
    rw [List.append_assoc] at h
    obtain ⟨first, middle, second, rfl, hmiddle, _, _⟩ :=
      decodeFrom_eq_append_ascii hascii h.symm
    exact ⟨bytesOf first, bytesOf second, by
      rw [bytesOf_append, hmiddle, List.append_assoc]⟩
  · rintro ⟨before, rest, h⟩
    rw [List.append_assoc] at h
    obtain ⟨first, middle, second, _, _, _, htext⟩ :=
      @decodeFrom_of_bytesOf_ascii state _ _ _ _ _ hascii h.symm
    exact ⟨decodeFrom state first, decodeFrom .start second, by
      rw [htext, List.append_assoc]⟩

theorem ascii_mem_iff {state : State} {stream : List (Option UInt8)} {c : Char}
    (h : c.toNat < 0x80) :
    c ∈ decodeFrom state stream ↔ UInt8.ofNat c.toNat ∈ bytesOf stream := by
  have hascii : IsAscii [c] := fun other ho => List.mem_singleton.mp ho ▸ h
  have hinside := @ascii_infix_iff state stream [] c hascii
  rwa [List.singleton_infix_iff, asciiBytes, List.map_singleton, List.singleton_infix_iff]
    at hinside

theorem ascii_head_iff {stream : List (Option UInt8)} {c : Char} (h : c.toNat < 0x80) :
    (∃ rest, decodeFrom .start stream = c :: rest) ↔
      ∃ rest, bytesOf stream = UInt8.ofNat c.toNat :: rest := by
  constructor
  · rintro ⟨rest, htext⟩
    obtain ⟨first, byte, second, rfl, hbyte, hfirst, _⟩ :=
      decodeFrom_eq_append h (show _ = [] ++ c :: rest from htext)
    refine ⟨bytesOf second, ?_⟩
    rw [bytesOf_append, (bytesOf_of_decodeFrom_nil hfirst).2, bytesOf_some, ← hbyte,
      UInt8.ofNat_toNat]
    rfl
  · rintro ⟨rest, hbytes⟩
    obtain ⟨first, second, rfl, hfirst, _⟩ :=
      exists_of_bytesOf_eq (show _ = [] ++ UInt8.ofNat c.toNat :: rest from hbytes)
    refine ⟨decodeFrom .start second, ?_⟩
    rw [decodeFrom_append_of_lt _ _ (by rw [toNat_asciiByte h]; exact h),
      decodeFrom_of_bytesOf_nil hfirst, ofNat_asciiByte h]
    rfl

theorem decodeFrom_of_ascii_prefix {stream : List (Option UInt8)} {text : List Char}
    {rest : List UInt8} (hascii : IsAscii text) (h : bytesOf stream = asciiBytes text ++ rest) :
    ∃ second, bytesOf second = rest ∧
      decodeFrom .start stream = text ++ decodeFrom .start second := by
  cases text with
  | nil => exact ⟨stream, h, rfl⟩
  | cons c text =>
      obtain ⟨first, _, second, _, hfirst, hsecond, htext⟩ :=
        @decodeFrom_of_bytesOf_ascii .start stream [] rest text c hascii h
      refine ⟨second, hsecond, ?_⟩
      rw [htext, decodeFrom_of_bytesOf_nil hfirst]
      rfl

theorem mem_emitted_of_lt (state : State) (before : List UInt8) {byte : UInt8}
    (h : byte.toNat < 0x80) (rest : List UInt8) :
    Char.ofNat byte.toNat ∈ emitted state (before ++ byte :: rest) := by
  induction before generalizing state with
  | nil =>
      rw [List.nil_append, emitted, feed_of_lt state h]
      exact List.mem_append_left _ (List.mem_append_right _ List.mem_cons_self)
  | cons other before ih => exact List.mem_append_right _ (ih _)

-- Before an ASCII byte the text can be read in two parts.
theorem decodeFrom_append_of_head (state : State) (first : List (Option UInt8))
    {second : List (Option UInt8)} {byte : UInt8} {rest : List UInt8}
    (h : bytesOf second = byte :: rest) (hbyte : byte.toNat < 0x80) :
    decodeFrom state (first ++ second) = decodeFrom state first ++ decodeFrom .start second := by
  cases second with
  | nil => cases h
  | cons symbol second =>
      cases symbol with
      | none => exact decodeFrom_append_none state first second
      | some other =>
          obtain ⟨rfl, _⟩ := List.cons.inj h
          rw [decodeFrom_append_of_lt state first hbyte, decodeFrom, feed_of_lt .start hbyte]
          rfl

end AsciiTexts

end OpenBalenaVpn.Utf8
