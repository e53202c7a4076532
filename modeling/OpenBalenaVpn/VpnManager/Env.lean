import OpenBalenaVpn.VpnManager.Parser

namespace OpenBalenaVpn.VpnManager

open JsString

section Encoding

-- The lines that OpenVPN writes for a variable of a client and for a log message.
def envLine (pair : JsString × JsString) : JsString :=
  utf16 ">CLIENT:ENV,".toList ++ (pair.1 ++ '='.toNat :: pair.2)

def logLine (timestamp level message : JsString) : JsString :=
  utf16 ">LOG:".toList ++ (timestamp ++ ','.toNat :: (level ++ ','.toNat :: message))

-- The variables of one block: names that are distinct and contain no separator.
structure Variables (pairs : List (JsString × JsString)) : Prop where
  distinct : (pairs.map Prod.fst).Nodup
  names : ∀ pair ∈ pairs, pair.1 ≠ [] ∧ '='.toNat ∉ pair.1

-- The event of the block that `opening` opens, as the manager emits it when `line` has
-- come, has each variable with its full value.
def DecodesBlock (debug : Bool) (before : List JsString) (opening : JsString)
    (pairs : List (JsString × JsString)) (line : JsString) : Prop :=
  ∃ opened closed block, (∀ fuel, receive (fuel + 2) debug (before ++ [opening]) = some opened) ∧
    (∀ fuel, receive (fuel + 2) debug (before ++ opening :: (pairs.map envLine ++ [line])) =
      some closed) ∧
    closed.events[opened.events.length]? = some (.client block) ∧
    ∀ pair ∈ pairs, block.env.get pair.1 = some (some pair.2)

-- The line ends an open block, if there is one, and gives one log event.
def DecodesLog (debug : Bool) (before : List JsString)
    (timestamp level : JsString) (named : LogLevel) (message : JsString) : Prop :=
  ∃ state logged ended, (∀ fuel, receive (fuel + 2) debug before = some state) ∧
    (∀ fuel, receive (fuel + 2) debug (before ++ [logLine timestamp level message]) =
      some logged) ∧
    logged.events = state.events ++ (ended : List Block).map .client ++
      [.log (.named named) message]

end Encoding

section EnvLines

theorem drop_envLine (pair : JsString × JsString) :
    (envLine pair).drop 12 = pair.1 ++ '='.toNat :: pair.2 := rfl

theorem isEnv_envLine (pair : JsString × JsString) : IsEnv (envLine pair) := by
  constructor
  · exact List.isPrefixOf_iff_prefix.mpr ⟨','.toNat :: (pair.1 ++ '='.toNat :: pair.2), rfl⟩
  · intro h
    have hmem : '='.toNat ∈ envLine pair :=
      List.mem_append_right _ (List.mem_append_right _ List.mem_cons_self)
    rw [h] at hmem
    exact absurd hmem (by decide)

theorem readEnv_envLine {pair : JsString × JsString} (h : '='.toNat ∉ pair.1) (env : Env) :
    readEnv (envLine pair) env = assign env pair.1 (split pair.2 '=').head? := by
  rw [readEnv, drop_envLine, split_append h]
  simp [List.head?_eq_getElem?]

theorem get_assign (env : Env) (key name : JsString) (val : Option JsString) :
    (assign env key val).get name =
      if key = name ∧ key ≠ PROTO then some val else env.get name := by
  unfold assign
  by_cases hp : key = PROTO
  · rw [if_pos hp, if_neg fun h => h.2 hp]
  · rw [if_neg hp, OrderedMap.get_set]
    simp [hp]

-- The env after the lines of a list of variables.
def decode (env : Env) (pairs : List (JsString × JsString)) : Env :=
  pairs.foldl (fun env pair => assign env pair.1 (split pair.2 '=').head?) env

theorem foldl_read_envLine {pairs : List (JsString × JsString)}
    (h : ∀ pair ∈ pairs, '='.toNat ∉ pair.1) (block : Block) :
    (pairs.map envLine).foldl Block.read block =
      { block with env := decode block.env pairs } := by
  induction pairs generalizing block with
  | nil => rfl
  | cons pair pairs ih =>
      rw [List.map_cons, List.foldl_cons, ih fun other ho => h other (List.mem_cons_of_mem _ ho)]
      simp only [Block.read, readEnv_envLine (h pair List.mem_cons_self), decode, List.foldl_cons]

theorem get_decode_of_notMem {pairs : List (JsString × JsString)} {name : JsString}
    (h : name ∉ pairs.map Prod.fst) (env : Env) : (decode env pairs).get name = env.get name := by
  induction pairs generalizing env with
  | nil => rfl
  | cons pair pairs ih =>
      obtain ⟨hne, hrest⟩ := not_or.mp (mt List.mem_cons.mpr h)
      have htail := ih hrest (assign env pair.1 (split pair.2 '=').head?)
      rw [get_assign, if_neg fun he => hne he.1.symm] at htail
      exact htail

-- A variable is read back up to the first separator in its value.
theorem get_decode {pairs : List (JsString × JsString)} (h : (pairs.map Prod.fst).Nodup)
    {pair : JsString × JsString} (hmem : pair ∈ pairs) (env : Env) :
    (decode env pairs).get pair.1 =
      if pair.1 ≠ PROTO then some (split pair.2 '=').head? else env.get pair.1 := by
  induction pairs generalizing env with
  | nil => cases hmem
  | cons first pairs ih =>
      obtain ⟨hfirst, hrest⟩ := List.nodup_cons.mp h
      rcases List.mem_cons.mp hmem with rfl | hm
      · have htail := get_decode_of_notMem hfirst (assign env pair.1 (split pair.2 '=').head?)
        rw [get_assign] at htail
        simp only [true_and] at htail
        exact htail
      · have hne : first.1 ≠ pair.1 := fun he => hfirst (he ▸ List.mem_map_of_mem hm)
        have htail := ih hrest hm (assign env first.1 (split first.2 '=').head?)
        have hother : (assign env first.1 (split first.2 '=').head?).get pair.1 =
            env.get pair.1 := by rw [get_assign, if_neg fun he => hne he.1]
        rw [hother] at htail
        exact htail

end EnvLines

section Blocks

theorem env_of_header {data : JsString} {block : Block} (h : header data = some block) :
    block.env = .empty := by
  obtain ⟨_, eventType, _, rfl⟩ := header_eq_some h
  rfl

theorem decodesBlock_iff (debug : Bool) (before : List JsString) (opening : JsString)
    {line : JsString} {block : Block} {pairs : List (JsString × JsString)}
    (hopening : header opening = some block) (hpairs : Variables pairs) (hline : ¬IsEnv line) :
    DecodesBlock debug before opening pairs line ↔
      ∀ pair ∈ pairs, '='.toNat ∉ pair.2 ∧ pair.1 ≠ PROTO := by
  have hnames : ∀ pair ∈ pairs, '='.toNat ∉ pair.1 := fun pair hp => (hpairs.names pair hp).2
  have hlines : ∀ data ∈ pairs.map envLine, IsEnv data := by
    intro data hd
    obtain ⟨pair, _, rfl⟩ := List.mem_map.mp hd
    exact isEnv_envLine pair
  obtain ⟨opened, hopened, _, hopenedEvents⟩ := receive_refines debug (before ++ [opening])
  obtain ⟨closed, hclosed, _, hclosedEvents⟩ :=
    receive_refines debug (before ++ opening :: (pairs.map envLine ++ [line]))
  rw [reference_block before hopening hlines hline, foldl_read_envLine hnames,
    env_of_header hopening] at hclosedEvents
  have hevent : closed.events[opened.events.length]? =
      some (.client { block with env := decode .empty pairs }) := by
    rw [hclosedEvents, hopenedEvents]
    simp
  have hget : ∀ pair ∈ pairs, (decode .empty pairs).get pair.1 =
      if pair.1 ≠ PROTO then some (split pair.2 '=').head? else none := fun pair hp =>
    get_decode hpairs.distinct hp .empty
  constructor
  · rintro ⟨opened', closed', block', ho, hc, hb, hvalues⟩ pair hp
    obtain rfl : opened = opened' := Option.some.inj ((hopened 0).symm.trans (ho 0))
    obtain rfl : closed = closed' := Option.some.inj ((hclosed 0).symm.trans (hc 0))
    obtain rfl := Event.client.inj (Option.some.inj (hevent.symm.trans hb))
    have hvalue := (hget pair hp).symm.trans (hvalues pair hp)
    split at hvalue
    · rename_i hproto
      exact ⟨(split_head_eq_iff pair.2 '=').mp (Option.some.inj hvalue), hproto⟩
    · cases hvalue
  · intro h
    refine ⟨opened, closed, _, hopened, hclosed, hevent, fun pair hp => ?_⟩
    obtain ⟨hvalue, hproto⟩ := h pair hp
    rw [hget pair hp, if_pos hproto, (split_head_eq_iff pair.2 '=').mpr hvalue]

end Blocks

section Logs

theorem letter_of_VpnLogLevels : ∀ entry ∈ VpnLogLevels,
    ','.toNat ∉ entry.1 ∧ lookupLevel (some entry.1) = .named entry.2 := by
  decide

theorem ownEvents_logLine {timestamp level : JsString} {named : LogLevel}
    (htimestamp : ','.toNat ∉ timestamp) (hlevel : getEntry level VpnLogLevels = some named)
    (message : JsString) :
    ownEvents (logLine timestamp level message) = [.log (.named named) message] := by
  have hlog : startsWith (logLine timestamp level message) ">LOG:" :=
    List.isPrefixOf_iff_prefix.mpr ⟨_, rfl⟩
  have hdrop : (logLine timestamp level message).drop 5 =
    timestamp ++ ','.toNat :: (level ++ ','.toNat :: message) := rfl
  have hletter := letter_of_VpnLogLevels (level, named) (mem_of_getEntry hlevel)
  rw [ownEvents, if_pos hlog, hdrop, split_append htimestamp, split_append hletter.1]
  simp only [List.getElem?_cons_succ, List.getElem?_cons_zero, List.drop_succ_cons, List.drop_zero,
    hletter.2, join_split]

theorem not_isEnv_logLine (timestamp level message : JsString) :
    ¬IsEnv (logLine timestamp level message) := by
  rintro ⟨henv, _⟩
  have hlog : startsWith (logLine timestamp level message) ">LOG:" :=
    List.isPrefixOf_iff_prefix.mpr ⟨_, rfl⟩
  exact absurd (startsWith_unique hlog henv) (by decide)

theorem decodesLog (debug : Bool) (before : List JsString) {timestamp level : JsString}
    {named : LogLevel} (htimestamp : ','.toNat ∉ timestamp)
    (hlevel : getEntry level VpnLogLevels = some named) (message : JsString) :
    DecodesLog debug before timestamp level named message := by
  obtain ⟨state, hstate, _, hstateEvents⟩ := receive_refines debug before
  obtain ⟨logged, hlogged, _, hloggedEvents⟩ :=
    receive_refines debug (before ++ [logLine timestamp level message])
  have hown := ownEvents_logLine htimestamp hlevel message
  have hbefore : reference before = ⟨(reference before).mode, state.events⟩ := by
    rw [hstateEvents]
  generalize (reference before).mode = mode at hbefore
  rw [reference_append, hbefore, List.foldl_cons, List.foldl_nil] at hloggedEvents
  cases mode with
  | idle =>
      refine ⟨state, logged, [], hstate, hlogged, ?_⟩
      rw [hloggedEvents, Reference.next, hown]
      simp
  | inside block =>
      refine ⟨state, logged, [block], hstate, hlogged, ?_⟩
      rw [hloggedEvents, next_of_not_isEnv (not_isEnv_logLine timestamp level message), hown]
      simp

end Logs

section Theorems

theorem decodes_iff (debug : Bool) (before earlier : List JsString) (opening line : JsString)
    (block : Block) (pairs : List (JsString × JsString)) (timestamp level message : JsString)
    (named : LogLevel) (hopening : header opening = some block) (hpairs : Variables pairs)
    (hline : ¬IsEnv line) (htimestamp : ','.toNat ∉ timestamp)
    (hlevel : getEntry level VpnLogLevels = some named) :
    (DecodesBlock debug before opening pairs line ∧
        DecodesLog debug earlier timestamp level named message) ↔
      ∀ pair ∈ pairs, '='.toNat ∉ pair.2 ∧ pair.1 ≠ PROTO := by
  rw [decodesBlock_iff debug before opening hopening hpairs hline]
  exact and_iff_left (decodesLog debug earlier htimestamp hlevel message)

theorem decodes_iff_plain :
    DecodesBlock false [] (utf16 ">CLIENT:CONNECT,7,1".toList)
        [(utf16 "username".toList, utf16 "bob".toList)] ENV_END ∧
      DecodesLog false [] (utf16 ['0']) (utf16 ['W']) .warning (utf16 "x,y".toList) :=
  (decodes_iff false [] [] (utf16 ">CLIENT:CONNECT,7,1".toList) ENV_END _
    [(utf16 "username".toList, utf16 "bob".toList)] (utf16 ['0']) (utf16 ['W'])
    (utf16 "x,y".toList) .warning rfl ⟨by decide, by decide⟩ (by decide) (by decide)
    (by decide)).mpr (by decide)

-- A password in base64 is cut at its padding.
theorem decodesBlock_truncated :
    Variables [(utf16 "password".toList, utf16 "abc=".toList)] ∧
      ¬DecodesBlock false [] (utf16 ">CLIENT:CONNECT,7,1".toList)
        [(utf16 "password".toList, utf16 "abc=".toList)] ENV_END := by
  have hvariables : Variables [(utf16 "password".toList, utf16 "abc=".toList)] :=
    ⟨by decide, by decide⟩
  refine ⟨hvariables, fun h => ?_⟩
  have hvalues := (decodesBlock_iff false [] (utf16 ">CLIENT:CONNECT,7,1".toList) rfl
    hvariables (by decide)).mp h
  exact (hvalues _ List.mem_cons_self).1 (by decide)

end Theorems

end OpenBalenaVpn.VpnManager
