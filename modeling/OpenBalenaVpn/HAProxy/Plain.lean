import OpenBalenaVpn.HAProxy.Lemmas

namespace OpenBalenaVpn.HAProxy

section Plain

def words (command : Text) : List Text := (command.splitOn ' ').filter (· ≠ [])

def readState (word : Text) : Option ServerState :=
  if word = "ready".toList then some .ready
  else if word = "drain".toList then some .drain
  else if word = "maint".toList then some .maint
  else none

-- The runtime command `set server`, word by word. Any other changes no server.
def performWords (servers : Servers) : List Text → Servers
  | [set, server, name, option, value] =>
      if [set, server, option] = ["set".toList, "server".toList, "state".toList] then
        match readState value with
        | some state => servers.modify name fun server => { server with state }
        | none => servers
      else servers
  | [set, server, name, option, addr, portOption, port] =>
      if [set, server, option, portOption] =
          ["set".toList, "server".toList, "addr".toList, "port".toList] then
        servers.modify name fun server =>
          { server with addr, port := Nat.ofDigitChars 10 port 0 }
      else servers
  | _ => servers

-- A runtime whose table is the servers, and which does what is documented.
def plainRuntime : Runtime Servers where
  start := template
  execute servers line :=
    (line.splitOn ';').foldl (fun servers command => performWords servers (words command)) servers
  servers := id

end Plain

section Words

-- A word that is read back as it is.
structure IsWord (word : Text) : Prop where
  ne_nil : word ≠ []
  space : ' ' ∉ word
  semicolon : ';' ∉ word

theorem words_join {pieces : List Text} (hpieces : ∀ piece ∈ pieces, IsWord piece)
    (hne : pieces ≠ []) : words ([' '].intercalate pieces) = pieces := by
  rw [words, List.splitOn_intercalate _ (fun piece hp => (hpieces piece hp).space) hne]
  exact List.filter_eq_self.mpr fun piece hp => by simpa using (hpieces piece hp).ne_nil

theorem semicolon_notMem_join {pieces : List Text} (hpieces : ∀ piece ∈ pieces, IsWord piece) :
    ';' ∉ [' '].intercalate pieces := by
  induction pieces with
  | nil => simp
  | cons piece pieces ih =>
      have hpiece := (hpieces piece List.mem_cons_self).semicolon
      have hrest := ih fun other ho => hpieces other (List.mem_cons_of_mem _ ho)
      cases pieces with
      | nil => simpa using hpiece
      | cons next pieces => simp [List.intercalate_cons_cons, hpiece, hrest]

theorem isWord_toDigits (n : Nat) : IsWord (Nat.toDigits 10 n) where
  ne_nil := Nat.toDigits_ne_nil
  space := Number.notMem_digits (Number.isDigit_toDigits n) rfl
  semicolon := Number.notMem_digits (Number.isDigit_toDigits n) rfl

-- A character that is no digit and not in the names before it.
theorem notMem_workerName {c : Char} (hbackend : c ∉ "vpn-workers/".toList)
    (hserver : c ∉ "vpn".toList) (hdigit : c.isDigit = false) (instanceId : Nat) :
    c ∉ workerName instanceId := by
  have hdigits := Number.notMem_digits (Number.isDigit_toDigits instanceId) hdigit
  simp only [workerName_eq, List.mem_append, not_or]
  exact ⟨hbackend, hserver, hdigits⟩

theorem isWord_workerName (instanceId : Nat) : IsWord (workerName instanceId) where
  ne_nil := by simp [workerName_eq]
  space := notMem_workerName (by simp) (by simp) rfl instanceId
  semicolon := notMem_workerName (by simp) (by simp) rfl instanceId

theorem isWord_localhost : IsWord localhost := by
  have hword : IsWord "127.0.0.1".toList := ⟨by simp, by simp, by simp⟩
  exact hword

theorem isWord_word (state : ServerState) : IsWord state.word := by
  cases state <;> exact ⟨by simp [ServerState.word], by simp [ServerState.word],
    by simp [ServerState.word]⟩

end Words

section Documentation

-- The commands of the workers, word by word.
def Command.words : Command → List Text
  | addr workerId port => ["set".toList, "server".toList, workerName workerId, "addr".toList,
      localhost, "port".toList, Nat.toDigits 10 port]
  | state workerId target => ["set".toList, "server".toList, workerName workerId,
      "state".toList, target.word]

theorem join_addr (name host port : Text) : "set server ".toList ++ name ++ " addr ".toList ++
    host ++ " port ".toList ++ port = [' '].intercalate ["set".toList, "server".toList, name,
      "addr".toList, host, "port".toList, port] := by
  simp [List.intercalate_cons_cons]

theorem join_state (name word : Text) : "set server ".toList ++ name ++ " state ".toList ++ word =
    [' '].intercalate ["set".toList, "server".toList, name, "state".toList, word] := by
  simp [List.intercalate_cons_cons]

theorem Command.text_eq (command : Command) : command.text = [' '].intercalate command.words := by
  cases command with
  | addr workerId port => exact join_addr ..
  | state workerId target => exact join_state ..

theorem Command.isWord_words (command : Command) : ∀ piece ∈ command.words, IsWord piece := by
  cases command with
  | addr workerId port =>
      simp only [Command.words, List.forall_mem_cons]
      exact ⟨⟨by simp, by simp, by simp⟩, ⟨by simp, by simp, by simp⟩,
        isWord_workerName workerId, ⟨by simp, by simp, by simp⟩, isWord_localhost,
        ⟨by simp, by simp, by simp⟩, isWord_toDigits port, nofun⟩
  | state workerId state =>
      simp only [Command.words, List.forall_mem_cons]
      exact ⟨⟨by simp, by simp, by simp⟩, ⟨by simp, by simp, by simp⟩,
        isWord_workerName workerId, ⟨by simp, by simp, by simp⟩, isWord_word state, nofun⟩

theorem Command.semicolon_notMem (command : Command) : ';' ∉ command.text :=
  command.text_eq ▸ semicolon_notMem_join command.isWord_words

theorem Command.words_text (command : Command) : HAProxy.words command.text = command.words := by
  rw [command.text_eq, words_join command.isWord_words]
  cases command <;> exact List.cons_ne_nil _ _

theorem readState_word (state : ServerState) : readState state.word = some state := by
  cases state <;> decide

theorem performWords_words (servers : Servers) (command : Command) :
    performWords servers command.words = command.perform servers := by
  cases command with
  | addr workerId port =>
      rw [Command.words, performWords, if_pos rfl, Nat.ofDigitChars_ten_toDigits]
      rfl
  | state workerId state =>
      rw [Command.words, performWords, if_pos rfl, readState_word]
      rfl

theorem execute_text (servers : Servers) (command : Command) :
    plainRuntime.execute servers command.text = command.perform servers := by
  have hsplit := List.splitOn_eq_singleton command.semicolon_notMem
  simp only [plainRuntime, hsplit, List.foldl_cons, List.foldl_nil, command.words_text]
  exact performWords_words servers command

theorem execute_line (servers : Servers) (commands : List Command) :
    plainRuntime.execute servers (line commands) =
      commands.foldl (fun servers command => plainRuntime.execute servers command.text) servers := by
  induction commands generalizing servers with
  | nil => rfl
  | cons command commands ih =>
      have hline : line (command :: commands) = command.text ++ ';' :: line commands := by
        simp [line]
      have happend : plainRuntime.execute servers (command.text ++ ';' :: line commands) =
          plainRuntime.execute (plainRuntime.execute servers command.text) (line commands) := by
        simp only [plainRuntime, List.splitOn_append_cons_self, List.foldl_append]
      rw [hline, happend, ih, List.foldl_cons]

theorem documented_plainRuntime : Documented plainRuntime where
  start _ := rfl
  line := execute_line
  perform servers command _ := execute_text servers command

end Documentation

end OpenBalenaVpn.HAProxy
