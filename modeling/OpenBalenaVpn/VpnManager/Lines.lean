import OpenBalenaVpn.Foundation.JsString.Lines
import OpenBalenaVpn.Foundation.Utf8.Encode
import OpenBalenaVpn.VpnManager

namespace OpenBalenaVpn.VpnManager

open JsString

section Connector

-- The 'data' listener of the connector: the text of the unfinished line, and the lines
-- that were emitted.
structure Connector where
  buf : JsString
  lines : List JsString

def Connector.init : Connector := ⟨[], []⟩

def Connector.onData (connector : Connector) (data : List UInt8) : Connector :=
  let lines := splitLines (connector.buf ++ utf16 (Utf8.decode data))
  ⟨lines.getLast?.getD [], connector.lines ++ lines.dropLast.map trim⟩

-- The 'manager:data' lines of the buffers.
def emitted (chunks : List (List UInt8)) : List JsString :=
  (chunks.foldl Connector.onData .init).lines

-- The lines of a stream that is decoded as a whole.
def linesOf (stream : List UInt8) : List JsString := finished (utf16 (Utf8.decode stream))

end Connector

section Reassembly

-- The unfinished line stands for the text so far.
def Connector.Follows (connector : Connector) (text : JsString) : Prop :=
  ∃ pieces, connector.lines = pieces.map trim ∧ split text '\n' = pieces ++ [connector.buf] ∧
    ∀ rest, split (text ++ rest) '\n' = pieces ++ split (connector.buf ++ rest) '\n'

theorem Connector.Follows.onData {connector : Connector} {text : JsString}
    (h : connector.Follows text) (data : List UInt8) :
    (connector.onData data).Follows (text ++ utf16 (Utf8.decode data)) := by
  obtain ⟨pieces, hlines, _, hsplit⟩ := h
  obtain ⟨lines, more, last, hdata, hmore, htrim⟩ :=
    splitLines_split (connector.buf ++ utf16 (Utf8.decode data))
  obtain ⟨others, unfinished, hothers, hrest⟩ :=
    exists_split (connector.buf ++ utf16 (Utf8.decode data)) '\n'
  rw [hmore] at hothers
  obtain ⟨rfl, hlast⟩ := List.append_inj' hothers rfl
  obtain rfl : last = unfinished := List.singleton_inj.mp hlast
  have hbuf : (connector.onData data).buf = last := by
    simp only [Connector.onData, hdata, List.getLast?_concat, Option.getD_some]
  refine ⟨pieces ++ more, ?_, ?_, fun rest => ?_⟩
  · simp only [Connector.onData, hdata, List.dropLast_concat, hlines, List.map_append,
      map_trim_congr htrim]
  · rw [hsplit, hmore, hbuf, List.append_assoc]
  · rw [List.append_assoc, hsplit, ← List.append_assoc connector.buf, hrest, hbuf,
      List.append_assoc]

theorem Connector.Follows.foldl {connector : Connector} {text : JsString}
    (h : connector.Follows text) (chunks : List (List UInt8)) :
    (chunks.foldl Connector.onData connector).Follows
      (text ++ utf16 (chunks.flatMap Utf8.decode)) := by
  induction chunks generalizing connector text with
  | nil => rwa [List.flatMap_nil, utf16, List.flatMap_nil, List.append_nil]
  | cons data chunks ih =>
      have hrest := ih (h.onData data)
      rwa [List.append_assoc, ← Json.utf16_append] at hrest

-- Each buffer is decoded by itself, and the lines are those of the texts together.
theorem emitted_eq (chunks : List (List UInt8)) :
    emitted chunks = finished (utf16 (chunks.flatMap Utf8.decode)) := by
  have hinit : Connector.init.Follows [] := ⟨[], rfl, rfl, fun _ => rfl⟩
  obtain ⟨pieces, hlines, hsplit, _⟩ := hinit.foldl chunks
  obtain ⟨lines, more, last, htext, hmore, htrim⟩ :=
    splitLines_split (utf16 (chunks.flatMap Utf8.decode))
  rw [List.nil_append, hmore] at hsplit
  obtain ⟨rfl, _⟩ := List.append_inj' hsplit rfl
  rw [emitted, hlines, finished, htext, List.dropLast_concat, map_trim_congr htrim]

theorem feed_notMem_iff (text : List Char) : '\n'.toNat ∉ utf16 text ↔ '\n' ∉ text :=
  not_congr (mem_utf16_iff (by decide) text)

-- What the lines are up to the last line feed.
theorem finished_utf16 (text : List Char) {rest : List Char} (h : '\n' ∉ rest) :
    finished (utf16 (text ++ '\n' :: rest)) = (split (utf16 text) '\n').map trim ∧
      (finished (utf16 (text ++ '\n' :: rest))).flatten.count Utf8.replacement.toNat =
        text.count Utf8.replacement := by
  have hunits : utf16 (text ++ '\n' :: rest) = utf16 text ++ '\n'.toNat :: utf16 rest :=
    Json.utf16_append text ('\n' :: rest)
  have hrest := (feed_notMem_iff rest).mpr h
  rw [hunits]
  refine ⟨finished_append _ hrest, ?_⟩
  rw [count_finished (by decide) _ hrest, count_utf16]

theorem feed_mem_encode_iff (text : List Char) : 10 ∈ Utf8.encode text ↔ '\n' ∈ text := by
  have hascii := @Utf8.ascii_mem_iff .start ((Utf8.encode text).map some) '\n' (by decide)
  rw [Utf8.bytesOf_map_some, ← Utf8.decode, Utf8.decode_encode] at hascii
  exact hascii.symm

-- No piece before the line feed ends inside of a character.
theorem whole_iff {chunks : List (List UInt8)} {start rest : List Char}
    {first second : List (Option UInt8)} (hrest : '\n' ∉ rest)
    (hchunks : Utf8.marked chunks = first ++ some 10 :: second)
    (hfirst : Utf8.bytesOf first = Utf8.encode start)
    (hsecond : Utf8.bytesOf second = Utf8.encode rest) :
    Utf8.Whole first ↔
      ∀ before after, chunks = before ++ after → 10 ∈ after.flatten →
        Utf8.Valid before.flatten := by
  constructor
  · rintro hwhole before after rfl hafter
    rcases List.eq_nil_or_concat before with rfl | ⟨before, chunk, rfl⟩
    · exact ⟨[], rfl⟩
    rw [List.concat_eq_append]
    rw [List.concat_eq_append, List.append_assoc, List.singleton_append, Utf8.marked_append] at hchunks
    have hbytes : Utf8.bytesOf (Utf8.marked before ++ chunk.map some) =
        (before ++ [chunk]).flatten := by
      rw [Utf8.bytesOf_append, Utf8.bytesOf_marked, Utf8.bytesOf_map_some]
      simp
    rcases List.append_eq_append_iff.mp hchunks with ⟨more, rfl, hmore⟩ | ⟨more, _, hmore⟩
    · cases more with
      | nil => cases hmore
      | cons symbol more =>
          obtain ⟨rfl, _⟩ := List.cons.inj hmore
          rw [Utf8.bytesOf_append, hbytes] at hfirst
          exact Utf8.valid_of_after hfirst.symm (hbytes ▸ hwhole _ more rfl)
    · -- the line feed would be one of the rest
      cases more with
      | nil => cases hmore
      | cons symbol more =>
          have hinside : second = more ++ none :: Utf8.marked after := (List.cons.inj hmore).2
          rw [hinside, Utf8.bytesOf_append, Utf8.bytesOf_none, Utf8.bytesOf_marked] at hsecond
          refine absurd ((feed_mem_encode_iff rest).mp ?_) hrest
          rw [← hsecond]
          exact List.mem_append_right _ hafter
  · intro hvalid cut more hcut
    have hmark : Utf8.marked chunks = cut ++ none :: (more ++ some 10 :: second) := by
      rw [hchunks, hcut, List.append_assoc]
      rfl
    obtain ⟨before, chunk, after, hsplit, hbytes⟩ := Utf8.exists_of_mark hmark
    have hbefore : Utf8.bytesOf cut = (before ++ [chunk]).flatten := by simp [hbytes]
    have hflatten : (before ++ [chunk]).flatten ++ after.flatten =
        (before ++ [chunk]).flatten ++ (Utf8.bytesOf more ++ 10 :: Utf8.bytesOf second) := by
      rw [← List.flatten_append, List.append_assoc, List.singleton_append, ← hsplit,
        ← Utf8.bytesOf_marked, hmark, Utf8.bytesOf_append, Utf8.bytesOf_none, Utf8.bytesOf_append,
        Utf8.bytesOf_some, hbefore]
    have hafter : 10 ∈ after.flatten := by
      rw [List.append_cancel_left hflatten]
      exact List.mem_append_right _ List.mem_cons_self
    obtain ⟨text, htext⟩ := hvalid (before ++ [chunk]) after (by simp [hsplit]) hafter
    rw [hbefore, htext, Utf8.after_encode]

-- The lines are those of the whole stream exactly when no buffer before a line feed ends
-- inside of a character.
theorem emitted_eq_linesOf_iff {chunks : List (List UInt8)} (h : Utf8.Valid chunks.flatten) :
    emitted chunks = linesOf chunks.flatten ↔
      ∀ before after, chunks = before ++ after → 10 ∈ after.flatten →
        Utf8.Valid before.flatten := by
  obtain ⟨text, htext⟩ := h
  have hbytes : Utf8.bytesOf (Utf8.marked chunks) = Utf8.encode text := by
    rw [Utf8.bytesOf_marked, htext]
  rw [emitted_eq, linesOf, htext, Utf8.decode_encode, ← Utf8.decodeFrom_marked]
  by_cases hfeed : '\n' ∈ text
  · obtain ⟨start, rest, rfl, hrest⟩ := exists_last_of_mem hfeed
    have hencode : Utf8.encode (start ++ '\n' :: rest) =
        Utf8.encode start ++ 10 :: Utf8.encode rest := Utf8.encode_append _ _
    obtain ⟨first, second, hchunks, hfirst, hsecond⟩ :=
      Utf8.exists_of_bytesOf_eq (hbytes.trans hencode)
    have hdecode : Utf8.decodeFrom .start (Utf8.marked chunks) =
        Utf8.decodeFrom .start first ++ '\n' :: Utf8.decodeFrom .start second := by
      rw [hchunks, Utf8.decodeFrom_append_of_lt .start first (by decide)]
      rfl
    have hunfinished : '\n' ∉ Utf8.decodeFrom .start second := by
      rw [Utf8.ascii_mem_iff (by decide), hsecond]
      exact fun hmem => hrest ((feed_mem_encode_iff rest).mp hmem)
    obtain ⟨hlines, hcount⟩ := finished_utf16 (Utf8.decodeFrom .start first) hunfinished
    obtain ⟨hlines', hcount'⟩ := finished_utf16 start hrest
    rw [hdecode, ← whole_iff hrest hchunks hfirst hsecond]
    constructor
    · intro heq
      exact (Utf8.count_replacement hfirst).2 (by rw [← hcount, heq, hcount'])
    · intro hwhole
      rw [hlines, hlines', hwhole.decoded, hfirst, Utf8.decode_encode]
  · have hnone : 10 ∉ chunks.flatten := by
      rw [htext]
      exact fun hmem => hfeed ((feed_mem_encode_iff text).mp hmem)
    refine iff_of_true ?_ ?_
    · have hdecoded : '\n' ∉ Utf8.decodeFrom .start (Utf8.marked chunks) := by
        rw [Utf8.ascii_mem_iff (by decide), Utf8.bytesOf_marked]
        exact hnone
      rw [finished_of_notMem ((feed_notMem_iff _).mpr hdecoded),
        finished_of_notMem ((feed_notMem_iff _).mpr hfeed)]
    · rintro before after rfl hafter
      exact absurd (by simp only [List.flatten_append, List.mem_append, hafter, or_true]) hnone

-- A line that comes in two buffers, cut inside of its CR LF.
theorem emitted_eq_linesOf_return :
    emitted [[0xC3, 0xA9, 13], [10]] = linesOf [0xC3, 0xA9, 13, 10] := by
  refine (emitted_eq_linesOf_iff ⟨['é', '\r', '\n'], by decide +kernel⟩).mpr ?_
  intro before after hsplit hafter
  cases before with
  | nil => exact ⟨[], rfl⟩
  | cons first before =>
      obtain ⟨rfl, hrest⟩ := List.cons.inj hsplit
      cases before with
      | nil => exact ⟨['é', '\r'], by decide +kernel⟩
      | cons second before =>
          obtain ⟨_, hnil⟩ := List.cons.inj hrest
          rw [(List.append_eq_nil_iff.mp hnil.symm).2] at hafter
          cases hafter

-- A line that comes in two buffers, cut inside of its é.
theorem emitted_cut :
    Utf8.Valid [[0xC3], [0xA9, 10]].flatten ∧
      emitted [[0xC3], [0xA9, 10]] = [[0xFFFD, 0xFFFD]] ∧
      linesOf [[0xC3], [0xA9, 10]].flatten = [[0xE9]] :=
  ⟨⟨['é', '\n'], by decide +kernel⟩, by decide +kernel, by decide +kernel⟩

end Reassembly

end OpenBalenaVpn.VpnManager
