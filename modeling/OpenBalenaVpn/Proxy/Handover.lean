import OpenBalenaVpn.Proxy.StatusLine

namespace OpenBalenaVpn.Proxy

section Streams

open Utf8

def EndsBytes (bytes : List UInt8) : Prop :=
  ∀ byte rest, bytes = byte :: rest → Json.isDigit byte.toNat = false

theorem toNat_lt_of_code {c : Char} (h : isDigit c = true ∨ c = '+') : c.toNat < 0x80 := by
  rcases h with hdigit | rfl
  · have hrange : 48 ≤ c.toNat ∧ c.toNat ≤ 57 := by simpa [isDigit, Json.isDigit] using hdigit
    omega
  · decide

theorem Code.isAscii {text : Text} (h : Code text) : IsAscii text :=
  fun _ hc => toNat_lt_of_code (h.mem hc)

theorem ends_decodeFrom_iff (stream : List (Option UInt8)) :
    Ends (decodeFrom .start stream) ↔ EndsBytes (bytesOf stream) := by
  constructor
  · intro h byte rest hbytes
    by_contra hdigit
    rw [Bool.not_eq_false] at hdigit
    have hrange : 48 ≤ byte.toNat ∧ byte.toNat ≤ 57 := by simpa [Json.isDigit] using hdigit
    have hnat : (Char.ofNat byte.toNat).toNat = byte.toNat := toNat_ofNat_of_lt (by omega)
    obtain ⟨more, htext⟩ := (@ascii_head_iff stream (Char.ofNat byte.toNat)
      (by omega)).mpr ⟨rest, by rw [hnat, UInt8.ofNat_toNat]; exact hbytes⟩
    have hends := h _ more htext
    rw [isDigit, hnat, hdigit] at hends
    cases hends
  · intro h c rest htext
    by_contra hdigit
    rw [Bool.not_eq_false] at hdigit
    have hlt := toNat_lt_of_code (Or.inl hdigit)
    obtain ⟨more, hbytes⟩ := (ascii_head_iff hlt).mp ⟨rest, htext⟩
    have hends := h _ more hbytes
    rw [toNat_asciiByte hlt] at hends
    rw [isDigit, hends] at hdigit
    cases hdigit

def spaceByte : UInt8 := UInt8.ofNat ' '.toNat

-- The second word of the first line of a text that comes in pieces is read as 200.
def OkStream (stream : List (Option UInt8)) : Prop :=
  ∃ version space tail code rest, stream = version ++ some spaceByte :: (space ++ tail) ∧
    bytesOf tail = asciiBytes code ++ rest ∧ spaceByte ∉ bytesOf version ∧
    ¬ asciiBytes crlf <:+: bytesOf version ++ spaceByte :: bytesOf space ∧
    Blank (decodeFrom .start space) ∧ Code code ∧ EndsBytes rest

theorem decodeFrom_append_space (version space : List (Option UInt8)) :
    decodeFrom .start (version ++ some spaceByte :: space) =
      decodeFrom .start version ++ ' ' :: decodeFrom .start space :=
  decodeFrom_append_of_lt .start version (by decide) space

theorem isAscii_crlf : IsAscii crlf := by
  simp [IsAscii, crlf]

theorem crlf_infix_iff (stream : List (Option UInt8)) :
    crlf <:+: decodeFrom .start stream ↔ asciiBytes crlf <:+: bytesOf stream :=
  ascii_infix_iff isAscii_crlf

theorem status_decodeFrom_iff (stream : List (Option UInt8)) :
    httpStatusCode (httpStatusLine (decodeFrom .start stream)) = ok200 ↔ OkStream stream := by
  rw [status_iff]
  constructor
  · rintro ⟨version, space, code, rest, htext, hversion, hbreak, hblank, hcode, hends⟩
    obtain ⟨first, byte, words, rfl, hbyte, rfl, hwords⟩ :=
      @decodeFrom_eq_append .start stream version _ ' ' (by decide) htext
    have hspace : byte = spaceByte := by
      rw [spaceByte, ← hbyte, UInt8.ofNat_toNat]
    subst hspace
    obtain ⟨c, more, rfl, hc⟩ := hcode.head
    obtain ⟨blank, tail, second, rfl, htail, rfl, rfl⟩ :=
      decodeFrom_eq_append_ascii hcode.isAscii hwords
    refine ⟨first, blank, tail, c :: more, bytesOf second, rfl, htail, ?_, ?_, hblank, hcode,
      (ends_decodeFrom_iff second).mp hends⟩
    · intro hmem
      exact hversion ((ascii_mem_iff (by decide)).mpr hmem)
    · intro hinside
      apply hbreak
      rw [← decodeFrom_append_space, crlf_infix_iff, bytesOf_append, bytesOf_some]
      exact hinside
  · rintro ⟨version, space, tail, code, rest, rfl, htail, hversion, hbreak, hblank, hcode, hends⟩
    obtain ⟨second, rfl, hsecond⟩ := decodeFrom_of_ascii_prefix hcode.isAscii htail
    have hhead : ∃ byte more, bytesOf tail = byte :: more ∧ byte.toNat < 0x80 := by
      obtain ⟨c, more, rfl, hc⟩ := hcode.head
      refine ⟨_, _, htail, ?_⟩
      rw [toNat_asciiByte (toNat_lt_of_code hc)]
      exact toNat_lt_of_code hc
    obtain ⟨byte, more, hbytes, hlt⟩ := hhead
    refine ⟨decodeFrom .start version, decodeFrom .start space, code,
      decodeFrom .start second, ?_, ?_, ?_, hblank, hcode, (ends_decodeFrom_iff second).mpr hends⟩
    · rw [decodeFrom_append_space, decodeFrom_append_of_head .start space hbytes hlt, hsecond]
    · intro hmem
      exact hversion ((ascii_mem_iff (by decide)).mp hmem)
    · rw [← decodeFrom_append_space, crlf_infix_iff, bytesOf_append, bytesOf_some]
      exact hbreak

end Streams

section Cuts

open Utf8

def OkBytes (bytes : List UInt8) : Prop :=
  ∃ version space code rest, bytes = version ++ spaceByte :: (space ++ (asciiBytes code ++ rest)) ∧
    spaceByte ∉ version ∧ ¬ asciiBytes crlf <:+: version ++ spaceByte :: space ∧
    Blank (decode space) ∧ Code code ∧ EndsBytes rest

-- The bytes end inside of a character, after white space in front of the status code.
def CutsSpace (bytes : List UInt8) : Prop :=
  ∃ version space, bytes = version ++ spaceByte :: space ∧ spaceByte ∉ version ∧
    ¬ asciiBytes crlf <:+: bytes ∧ Blank (emitted .start space) ∧ after .start space ≠ .start

theorem not_blank_replacement {text : Text} (h : replacement ∈ text) : ¬ Blank text :=
  fun hblank => absurd (hblank _ h).1 (by decide)

theorem after_of_blank {bytes : List UInt8} (h : Blank (decode bytes)) :
    after .start bytes = .start := by
  by_contra hstate
  refine not_blank_replacement ?_ h
  rw [decode_eq]
  exact List.mem_append_right _ (replacement_mem_flush hstate)

theorem decode_bytesOf_of_blank {stream : List (Option UInt8)}
    (h : Blank (decodeFrom .start stream)) :
    decode (bytesOf stream) = decodeFrom .start stream := by
  rcases decodeFrom_eq_or_cut .start stream with hwhole | ⟨first, second, rfl, hcut⟩
  · exact hwhole.symm
  · exact absurd h (not_blank_replacement (replacement_mem_of_cut hcut))

-- What stands before the first space is determined.
theorem append_space_inj {version version' rest rest' : List UInt8}
    (h : version ++ spaceByte :: rest = version' ++ spaceByte :: rest')
    (hversion : spaceByte ∉ version) (hversion' : spaceByte ∉ version') :
    version = version' ∧ rest = rest' := by
  have hsplit := congrArg (List.splitOn spaceByte) h
  rw [List.splitOn_append_cons_self_of_not_mem hversion,
    List.splitOn_append_cons_self_of_not_mem hversion'] at hsplit
  obtain ⟨rfl, _⟩ := List.cons.inj hsplit
  exact ⟨rfl, (List.cons.inj (List.append_cancel_left h)).2⟩

theorem OkStream.bytes {stream : List (Option UInt8)} (h : OkStream stream) :
    OkBytes (bytesOf stream) := by
  obtain ⟨version, space, tail, code, rest, rfl, htail, hversion, hbreak, hblank, hcode, hends⟩ :=
    h
  refine ⟨bytesOf version, bytesOf space, code, rest, ?_, hversion, hbreak, ?_, hcode, hends⟩
  · rw [bytesOf_append, bytesOf_some, bytesOf_append, htail]
  · rw [decode_bytesOf_of_blank hblank]
    exact hblank

-- A piece may not end inside of a character of the white space.
theorem OkStream.not_cuts {first second : List (Option UInt8)}
    (h : OkStream (first ++ none :: second)) : ¬ CutsSpace (bytesOf first) := by
  rintro ⟨version', space', hbytes, hversion', _, hblank', hafter⟩
  obtain ⟨version, space, tail, code, rest, hstream, htail, hversion, _, hblank, hcode, _⟩ := h
  have hspace : after .start (bytesOf space) = .start :=
    after_of_blank (by rw [decode_bytesOf_of_blank hblank]; exact hblank)
  -- the piece ends after the space in front of the white space
  obtain ⟨middle, rfl, hmiddle⟩ : ∃ middle, first = version ++ some spaceByte :: middle ∧
      space ++ tail = middle ++ none :: second := by
    rcases List.append_eq_append_iff.mp hstream with ⟨more, rfl, _⟩ | ⟨more, rfl, hmore⟩
    · refine absurd ?_ hversion
      rw [bytesOf_append, hbytes]
      exact List.mem_append_left _ (List.mem_append_right _ List.mem_cons_self)
    · cases more with
      | nil => cases hmore
      | cons symbol more =>
          obtain ⟨rfl, hrest⟩ := List.cons.inj hmore
          exact ⟨more, rfl, hrest⟩
  rw [bytesOf_append, bytesOf_some] at hbytes
  obtain ⟨rfl, rfl⟩ := append_space_inj hbytes hversion hversion'
  rcases List.append_eq_append_iff.mp hmiddle with ⟨more, rfl, hmore⟩ | ⟨more, rfl, hmore⟩
  · -- it ends after the white space
    rw [bytesOf_append] at hafter hblank'
    cases hrest : bytesOf more with
    | nil =>
        rw [hrest, List.append_nil] at hafter
        exact hafter hspace
    | cons byte bytes =>
        rw [hrest] at hblank'
        obtain ⟨c, code, rfl, hc⟩ := hcode.head
        have hlt := toNat_lt_of_code hc
        have hbyte : byte = UInt8.ofNat c.toNat := by
          rw [hmore, bytesOf_append, hrest] at htail
          exact (List.cons.inj htail).1
        have hmem : Char.ofNat byte.toNat ∈ emitted .start (bytesOf space ++ byte :: bytes) :=
          mem_emitted_of_lt .start _ (by rw [hbyte, toNat_asciiByte hlt]; exact hlt) bytes
        rw [hbyte, ofNat_asciiByte hlt, ← hbyte] at hmem
        exact absurd (hblank' c hmem).1 (by simp [isSpace_of_code hc])
  · -- it ends inside of the white space
    cases more with
    | nil =>
        rw [List.append_nil] at hspace
        exact hafter hspace
    | cons symbol more =>
        obtain ⟨rfl, _⟩ := List.cons.inj hmore
        exact absurd hblank (not_blank_replacement (replacement_mem_of_cut hafter))

theorem OkBytes.okStream {stream : List (Option UInt8)} (h : OkBytes (bytesOf stream))
    (hcuts : ∀ first second, stream = first ++ none :: second → ¬ CutsSpace (bytesOf first)) :
    OkStream stream := by
  obtain ⟨version, space, code, rest, hbytes, hversion, hbreak, hblank, hcode, hends⟩ := h
  obtain ⟨first, words, rfl, rfl, hwords⟩ := exists_of_bytesOf_eq hbytes
  obtain ⟨c, more, rfl, hc⟩ := hcode.head
  obtain ⟨blank, tail, rfl, rfl, htail⟩ := exists_of_bytesOf_eq hwords
  refine ⟨first, blank, some (UInt8.ofNat c.toNat) :: tail, c :: more, rest, rfl, ?_, hversion,
    hbreak, ?_, hcode, hends⟩
  · rw [bytesOf_some, htail]
    rfl
  · rcases decodeFrom_eq_or_cut .start blank with hwhole | ⟨before, second, rfl, hcut⟩
    · rw [hwhole]
      exact hblank
    · refine absurd ?_ (hcuts (first ++ some spaceByte :: before)
        (second ++ some (UInt8.ofNat c.toNat) :: tail) (by simp))
      rw [bytesOf_append, bytesOf_some]
      rw [bytesOf_append, bytesOf_none] at hbreak hblank
      refine ⟨bytesOf first, bytesOf before, rfl, hversion, fun hinside => hbreak ?_, ?_, hcut⟩
      · rw [← List.cons_append, ← List.append_assoc]
        exact hinside.trans (List.prefix_append _ _).isInfix
      · intro d hd
        apply hblank
        rw [decode_append]
        exact List.mem_append_left _ hd

theorem okStream_iff (stream : List (Option UInt8)) : OkStream stream ↔
    OkBytes (bytesOf stream) ∧
      ∀ first second, stream = first ++ none :: second → ¬ CutsSpace (bytesOf first) :=
  ⟨fun h => ⟨h.bytes, fun _ _ heq => (heq ▸ h).not_cuts⟩, fun h => h.1.okStream h.2⟩

theorem not_crlf_append_codeBytes {bytes : List UInt8} {code : Text}
    (h : ¬ asciiBytes crlf <:+: bytes) (hcode : Code code) :
    ¬ asciiBytes crlf <:+: bytes ++ asciiBytes code := by
  intro hinside
  refine h (pair_infix_of_append hinside fun hmem => ?_)
  obtain ⟨c, hc, hbyte⟩ := List.mem_map.mp hmem
  have hnat := congrArg UInt8.toNat hbyte
  rw [toNat_asciiByte (hcode.isAscii c hc)] at hnat
  have hnewline : c = '\n' := Char.toNat_inj.mp hnat
  exact absurd (hcode.mem (hnewline ▸ hc)) (by decide)

-- A code does not end with CR.
theorem Code.append_ne_concat_return {code : Text} (h : Code code) (bytes header : List UInt8) :
    bytes ++ asciiBytes code ≠ header ++ [UInt8.ofNat '\r'.toNat] := by
  intro heq
  obtain ⟨init, c, rfl, hc⟩ := h.last
  rw [asciiBytes, List.map_append, ← List.append_assoc] at heq
  have hbyte := (List.cons.inj (List.append_inj' heq rfl).2).1
  have hnat := congrArg UInt8.toNat hbyte
  rw [toNat_asciiByte (toNat_lt_of_code (Or.inl hc))] at hnat
  have hreturn : c = '\r' := Char.toNat_inj.mp hnat
  exact absurd (hreturn ▸ hc) (by decide)

-- What comes after the first line does not count.
theorem okBytes_append_iff (header rest : List UInt8) :
    OkBytes (header ++ (asciiBytes crlf ++ rest)) ↔ OkBytes header := by
  constructor
  · rintro ⟨version, space, code, more, hbytes, hversion, hbreak, hblank, hcode, hends⟩
    have hsplit : header ++ (asciiBytes crlf ++ rest) =
        ((version ++ spaceByte :: space) ++ asciiBytes code) ++ more := by
      rw [hbytes]
      simp
    rcases List.append_eq_append_iff.mp hsplit with ⟨cut, hcut, hrest⟩ | ⟨cut, rfl, hmore⟩
    · cases cut with
      | nil =>
          refine ⟨version, space, code, [], ?_, hversion, hbreak, hblank, hcode, nofun⟩
          rw [List.append_nil] at hcut
          rw [← hcut]
          simp
      | cons byte cut =>
          obtain ⟨rfl, htail⟩ := List.cons.inj hrest
          cases cut with
          | nil => exact absurd hcut (hcode.append_ne_concat_return _ header)
          | cons byte cut =>
              obtain ⟨rfl, _⟩ := List.cons.inj htail
              refine absurd ⟨header, cut, ?_⟩ (not_crlf_append_codeBytes hbreak hcode)
              rw [hcut, List.append_assoc]
              rfl
    · refine ⟨version, space, code, cut, by simp, hversion, hbreak, hblank, hcode, ?_⟩
      rintro byte more' rfl
      exact hends byte (more' ++ (asciiBytes crlf ++ rest)) hmore
  · rintro ⟨version, space, code, more, rfl, hversion, hbreak, hblank, hcode, hends⟩
    refine ⟨version, space, code, more ++ (asciiBytes crlf ++ rest), by simp, hversion, hbreak,
      hblank, hcode, ?_⟩
    cases more with
    | nil =>
        rintro byte more' heq
        obtain ⟨rfl, _⟩ := List.cons.inj heq
        decide
    | cons first more =>
        rintro byte more' heq
        obtain ⟨rfl, _⟩ := List.cons.inj heq
        exact hends first more rfl

theorem status_decode_iff (bytes : List UInt8) :
    httpStatusCode (httpStatusLine (decode bytes)) = ok200 ↔ OkBytes bytes := by
  have hiff := okStream_iff (bytes.map some)
  rw [bytesOf_map_some] at hiff
  rw [decode, status_decodeFrom_iff, hiff]
  refine and_iff_left_of_imp fun _ first second heq => absurd ?_ (by simp : none ∉ bytes.map some)
  rw [heq]
  exact List.mem_append_right _ List.mem_cons_self

theorem status_chunks_iff (chunks : List (List UInt8)) :
    httpStatusCode (httpStatusLine (chunks.flatMap decode)) = ok200 ↔
      OkBytes chunks.flatten ∧ ∀ before chunk rest, chunks = before ++ chunk :: rest →
        ¬ CutsSpace (before.flatten ++ chunk) := by
  rw [← decodeFrom_marked, status_decodeFrom_iff, okStream_iff, bytesOf_marked]
  refine and_congr_right fun _ => ⟨fun h before chunk rest heq => ?_, fun h first second heq => ?_⟩
  · have hcut := h (marked before ++ chunk.map some) (marked rest)
      (by rw [heq, marked_append])
    rwa [bytesOf_append, bytesOf_marked, bytesOf_map_some] at hcut
  · obtain ⟨before, chunk, rest, hchunks, hbytes⟩ := exists_of_mark heq
    rw [hbytes]
    exact h before chunk rest hchunks

end Cuts

section Handover

open Utf8

variable (uuid : Text) (port : Number)

theorem foldl_resolved (received : List UInt8) (chunks : List (List UInt8)) :
    (chunks.map .data).foldl (onEvent uuid port) (.resolved received) =
      .resolved (received ++ chunks.flatten) := by
  induction chunks generalizing received with
  | nil => simp
  | cons chunk chunks ih =>
      rw [List.map_cons, List.foldl_cons, onEvent, ih, List.flatten_cons, List.append_assoc]

theorem foldl_rejected (message : Text) (chunks : List (List UInt8)) :
    (chunks.map .data).foldl (onEvent uuid port) (.rejected message) = .rejected message := by
  induction chunks with
  | nil => rfl
  | cons chunk chunks ih => exact ih

-- The chunks are collected as long as the header has no end.
theorem foldl_reading {response : Text} {chunks : List (List UInt8)}
    (h : ¬ endOfHeader <:+: response ++ chunks.flatMap decode) :
    (chunks.map .data).foldl (onEvent uuid port) (.reading response) =
      .reading (response ++ chunks.flatMap decode) := by
  induction chunks generalizing response with
  | nil => simp
  | cons chunk chunks ih =>
      rw [List.flatMap_cons, ← List.append_assoc] at h ⊢
      have hchunk : ¬ endOfHeader <:+: response ++ decode chunk := fun hinside =>
        h (hinside.trans (List.prefix_append _ _).isInfix)
      rw [List.map_cons, List.foldl_cons, onEvent, proxyData, if_neg hchunk, ih h]

theorem isAscii_endOfHeader : IsAscii endOfHeader := by
  simp [IsAscii, endOfHeader]

theorem endOfHeader_infix_iff (chunks : List (List UInt8)) :
    endOfHeader <:+: chunks.flatMap decode ↔ asciiBytes endOfHeader <:+: chunks.flatten := by
  rw [← decodeFrom_marked, ← bytesOf_marked]
  exact ascii_infix_iff isAscii_endOfHeader

-- The chunk with which the end of the header is there.
structure Completes (before : List (List UInt8)) (chunk : List UInt8) : Prop where
  waiting : ¬ asciiBytes endOfHeader <:+: before.flatten
  complete : asciiBytes endOfHeader <:+: before.flatten ++ chunk

theorem exists_completes {chunks : List (List UInt8)}
    (h : asciiBytes endOfHeader <:+: chunks.flatten) :
    ∃ before chunk rest, chunks = before ++ chunk :: rest ∧ Completes before chunk := by
  induction chunks using List.reverseRecOn with
  | nil => exact absurd h (by decide)
  | append_singleton chunks chunk ih =>
      by_cases hearlier : asciiBytes endOfHeader <:+: chunks.flatten
      · obtain ⟨before, first, rest, rfl, hfirst⟩ := ih hearlier
        exact ⟨before, first, rest ++ [chunk], by simp, hfirst⟩
      · exact ⟨chunks, chunk, [], rfl, hearlier, by simpa using h⟩

-- What the chunk makes of the promise. The rest of the chunk is read but not handed on.
theorem receiveResponse_of_completes {before : List (List UInt8)} {chunk : List UInt8}
    (h : Completes before chunk) (rest : List (List UInt8)) :
    receiveResponse uuid port (before ++ chunk :: rest) =
      if httpStatusCode (httpStatusLine ((before ++ [chunk]).flatMap decode)) = ok200 then
        .resolved rest.flatten
      else .rejected (remoteTunnellingError uuid port
        (httpStatusLine ((before ++ [chunk]).flatMap decode))) := by
  have hwaiting : ¬ endOfHeader <:+: [] ++ before.flatMap decode := by
    rw [List.nil_append, endOfHeader_infix_iff]
    exact h.waiting
  have hcomplete : endOfHeader <:+: before.flatMap decode ++ decode chunk := by
    have hinside := (endOfHeader_infix_iff (before ++ [chunk])).mpr (by simpa using h.complete)
    simpa using hinside
  rw [receiveResponse, List.map_append, List.foldl_append, foldl_reading uuid port hwaiting,
    List.map_cons, List.foldl_cons, onEvent, List.nil_append, proxyData, if_pos hcomplete,
    List.flatMap_append, List.flatMap_singleton]
  split
  · exact foldl_resolved uuid port [] rest
  · exact foldl_rejected uuid port _ rest

-- The socket is handed over exactly for status 200, and its holder receives the payload.
def HandsOver (header payload : List UInt8) (chunks : List (List UInt8)) : Prop :=
  ((∃ received, receiveResponse uuid port chunks = .resolved received) ↔
      httpStatusCode (httpStatusLine (decode header)) = ok200) ∧
    ∀ received, receiveResponse uuid port chunks = .resolved received → received = payload

-- No chunk ends inside of a character of the white space in front of the status code.
def Unbroken (chunks : List (List UInt8)) : Prop :=
  ∀ before chunk rest, chunks = before ++ chunk :: rest → ¬ CutsSpace (before.flatten ++ chunk)

-- The chunk that completes the end of the header ends there.
def Separate (header : List UInt8) (chunks : List (List UInt8)) : Prop :=
  ∀ before chunk rest, chunks = before ++ chunk :: rest → Completes before chunk →
    before.flatten ++ chunk = header ++ asciiBytes endOfHeader

theorem asciiBytes_endOfHeader :
    asciiBytes endOfHeader = asciiBytes crlf ++ asciiBytes crlf := rfl

theorem okBytes_of_endOfHeader {bytes : List UInt8} (h : asciiBytes endOfHeader <:+: bytes)
    (rest : List UInt8) : OkBytes (bytes ++ rest) ↔ OkBytes bytes := by
  obtain ⟨before, more, rfl⟩ := h
  rw [asciiBytes_endOfHeader]
  simp only [List.append_assoc, okBytes_append_iff]

theorem not_cutsSpace_of_endOfHeader {bytes : List UInt8}
    (h : asciiBytes endOfHeader <:+: bytes) : ¬ CutsSpace bytes := by
  rintro ⟨version, space, rfl, _, hbreak, _⟩
  rw [asciiBytes_endOfHeader] at h
  exact hbreak ((List.prefix_append _ _).isInfix.trans h)

variable {uuid : Text} {port : Number}

-- Only chunks before the end of the header can cut.
theorem unbroken_iff_of_completes {before : List (List UInt8)} {chunk : List UInt8}
    (h : Completes before chunk) (rest : List (List UInt8)) :
    Unbroken (before ++ chunk :: rest) ↔ Unbroken (before ++ [chunk]) := by
  constructor
  · intro hall first last more heq
    exact hall first last (more ++ rest) (by simpa using congrArg (· ++ rest) heq)
  · intro hall first last more heq
    rcases List.append_eq_append_iff.mp heq with ⟨middle, rfl, hmiddle⟩ | ⟨middle, rfl, hmiddle⟩
    · cases middle with
      | nil =>
          obtain ⟨rfl, _⟩ := List.cons.inj hmiddle
          have hlast := hall before chunk [] rfl
          simpa using hlast
      | cons other middle =>
          obtain ⟨rfl, _⟩ := List.cons.inj hmiddle
          refine not_cutsSpace_of_endOfHeader (h.complete.trans ?_)
          rw [List.flatten_append, List.flatten_cons]
          exact ⟨[], middle.flatten ++ last, by simp⟩
    · cases middle with
      | nil =>
          obtain ⟨rfl, _⟩ := List.cons.inj hmiddle
          exact hall first last [] (by simp)
      | cons other middle =>
          obtain ⟨rfl, _⟩ := List.cons.inj hmiddle
          exact hall first last (middle ++ [chunk]) (by simp)

theorem receives_iff {before rest : List (List UInt8)} {chunk header payload : List UInt8}
    (hchunks : (before ++ chunk :: rest).flatten = header ++ (asciiBytes endOfHeader ++ payload))
    (h : Completes before chunk) (received : List UInt8) :
    receiveResponse uuid port (before ++ chunk :: rest) = .resolved received ↔
      (OkBytes header ∧ Unbroken (before ++ chunk :: rest)) ∧ rest.flatten = received := by
  have hsplit : before.flatten ++ chunk ++ rest.flatten =
      header ++ (asciiBytes crlf ++ (asciiBytes crlf ++ payload)) := by
    rw [asciiBytes_endOfHeader] at hchunks
    simpa using hchunks
  have hheader : OkBytes (before.flatten ++ chunk) ↔ OkBytes header := by
    rw [← okBytes_of_endOfHeader h.complete rest.flatten, hsplit, okBytes_append_iff]
  have hstatus := status_chunks_iff (before ++ [chunk])
  rw [List.flatten_append, List.flatten_singleton, hheader] at hstatus
  rw [receiveResponse_of_completes uuid port h rest, unbroken_iff_of_completes h rest, Unbroken,
    ← hstatus]
  by_cases hok : httpStatusCode (httpStatusLine ((before ++ [chunk]).flatMap decode)) = ok200
  · rw [if_pos hok, Forward.resolved.injEq, and_iff_right hok]
  · rw [if_neg hok]
    exact ⟨nofun, fun hall => absurd hall.1 hok⟩

theorem handsOver_iff_of_completes {before rest : List (List UInt8)}
    {chunk header payload : List UInt8}
    (hchunks : (before ++ chunk :: rest).flatten = header ++ (asciiBytes endOfHeader ++ payload))
    (h : Completes before chunk) :
    HandsOver uuid port header payload (before ++ chunk :: rest) ↔
      (httpStatusCode (httpStatusLine (decode header)) = ok200 →
        Unbroken (before ++ chunk :: rest) ∧
          before.flatten ++ chunk = header ++ asciiBytes endOfHeader) := by
  have hpayload : rest.flatten = payload ↔
      before.flatten ++ chunk = header ++ asciiBytes endOfHeader := by
    have hsplit : before.flatten ++ chunk ++ rest.flatten =
        header ++ asciiBytes endOfHeader ++ payload := by
      simpa using hchunks
    constructor
    · intro heq
      rw [heq] at hsplit
      exact List.append_cancel_right hsplit
    · intro heq
      rw [heq] at hsplit
      exact List.append_cancel_left hsplit
  rw [HandsOver, status_decode_iff, ← hpayload]
  simp only [receives_iff hchunks h]
  constructor
  · rintro ⟨hresolves, hreceived⟩ hok
    obtain ⟨received, ⟨_, hunbroken⟩, rfl⟩ := hresolves.mpr hok
    exact ⟨hunbroken, hreceived _ ⟨⟨hok, hunbroken⟩, rfl⟩⟩
  · intro hall
    refine ⟨⟨?_, fun hok => ⟨_, ⟨hok, (hall hok).1⟩, rfl⟩⟩, ?_⟩
    · rintro ⟨received, ⟨hok, _⟩, _⟩
      exact hok
    · rintro received ⟨⟨hok, _⟩, rfl⟩
      exact (hall hok).2

-- For every way to split the response, the hand-over is right exactly when, for status
-- 200, no chunk cuts the white space and the payload starts a chunk of its own.
theorem handsOver_iff (header payload : List UInt8) (chunks : List (List UInt8))
    (hchunks : chunks.flatten = header ++ (asciiBytes endOfHeader ++ payload)) :
    HandsOver uuid port header payload chunks ↔
      (httpStatusCode (httpStatusLine (decode header)) = ok200 →
        Unbroken chunks ∧ Separate header chunks) := by
  have hcomplete : asciiBytes endOfHeader <:+: chunks.flatten :=
    ⟨header, payload, by rw [hchunks, List.append_assoc]⟩
  constructor
  · intro hover hok
    obtain ⟨before, chunk, rest, heq, hfirst⟩ := exists_completes hcomplete
    refine ⟨?_, ?_⟩
    · rw [heq] at hchunks hover ⊢
      exact ((handsOver_iff_of_completes hchunks hfirst).mp hover hok).1
    · intro before' chunk' rest' heq' hfirst'
      rw [heq'] at hchunks hover
      exact ((handsOver_iff_of_completes hchunks hfirst').mp hover hok).2
  · intro hall
    obtain ⟨before, chunk, rest, heq, hfirst⟩ := exists_completes hcomplete
    rw [heq] at hchunks ⊢
    refine (handsOver_iff_of_completes hchunks hfirst).mpr fun hok => ?_
    obtain ⟨hunbroken, hseparate⟩ := hall hok
    exact ⟨heq ▸ hunbroken, hseparate before chunk rest heq hfirst⟩

-- A terminator that is split over chunks, with the payload in a chunk of its own.
theorem handsOver_iff_apart :
    HandsOver "c0ffee".toList (.finite 22) (asciiBytes "HTTP/1.0 200 OK".toList)
        (asciiBytes "SSH-".toList) (["HTTP/1.0 200 O".toList, "K\r\n\r".toList, "\n".toList,
          "SSH-".toList].map asciiBytes) ∧
      Separate (asciiBytes "HTTP/1.0 200 OK".toList) (["HTTP/1.0 200 O".toList,
        "K\r\n\r".toList, "\n".toList, "SSH-".toList].map asciiBytes) := by
  have hover : HandsOver "c0ffee".toList (.finite 22) (asciiBytes "HTTP/1.0 200 OK".toList)
      (asciiBytes "SSH-".toList) (["HTTP/1.0 200 O".toList, "K\r\n\r".toList, "\n".toList,
        "SSH-".toList].map asciiBytes) :=
    ⟨⟨fun _ => rfl, fun _ => ⟨_, rfl⟩⟩, fun received h => (Forward.resolved.inj h).symm⟩
  exact ⟨hover, ((handsOver_iff _ _ _ (by decide)).mp hover rfl).2⟩

-- The first bytes of the payload are in the chunk of the terminator, and nobody gets them.
theorem handsOver_together :
    ¬ asciiBytes endOfHeader <:+: asciiBytes "HTTP/1.0 200 OK".toList ∧
      [asciiBytes "HTTP/1.0 200 OK\r\n\r\nSSH-".toList].flatten =
        asciiBytes "HTTP/1.0 200 OK".toList ++
          (asciiBytes endOfHeader ++ asciiBytes "SSH-".toList) ∧
      ¬ HandsOver "c0ffee".toList (.finite 22) (asciiBytes "HTTP/1.0 200 OK".toList)
        (asciiBytes "SSH-".toList) [asciiBytes "HTTP/1.0 200 OK\r\n\r\nSSH-".toList] := by
  refine ⟨by decide, by decide, fun hover => ?_⟩
  have hlost : receiveResponse "c0ffee".toList (.finite 22)
      [asciiBytes "HTTP/1.0 200 OK\r\n\r\nSSH-".toList] = .resolved [] := rfl
  have heq := hover.2 [] hlost
  exact absurd heq (by decide)

end Handover

end OpenBalenaVpn.Proxy
