import OpenBalenaVpn.Foundation.Number
import OpenBalenaVpn.Throttle.Lemmas
import Mathlib.Data.List.Nodup

namespace OpenBalenaVpn.Throttle

section Clients

def Action.enables : Action → Bool
  | add | update => true
  | _ => false

-- The clients that were ever added, in the order in which they came first.
def clients (runs : List Run) : List Text :=
  runs.foldl (fun clients run =>
    if run.action.enables && !clients.contains run.ip then clients ++ [run.ip] else clients) []

def decimal (number : Nat) : Text := Nat.toDigits 10 number

theorem increment_decimal (number : Nat) : increment (decimal number) = decimal (number + 1) := by
  rw [increment, decimal, Nat.ofDigitChars_ten_toDigits]
  rfl

theorem concat_getElem?_iff {α : Type} (values : List α) (value other : α) (place : Nat) :
    (values ++ [value])[place]? = some other ↔
      values[place]? = some other ∨ (place = values.length ∧ other = value) := by
  rw [List.getElem?_append]
  by_cases hlt : place < values.length
  · rw [if_pos hlt]
    exact ⟨Or.inl, fun h => h.resolve_right fun hlast => by omega⟩
  · rw [if_neg hlt, List.getElem?_eq_none (by omega : values.length ≤ place)]
    rw [List.getElem?_singleton]
    by_cases hzero : place - values.length = 0
    · rw [if_pos hzero, Option.some.injEq]
      exact ⟨fun h => Or.inr ⟨by omega, h.symm⟩, fun h => (h.resolve_left nofun).2.symm⟩
    · rw [if_neg hzero]
      exact ⟨nofun, fun h => absurd (h.resolve_left nofun).1 (by omega)⟩

-- Each client has its place in the list as its id, and the last id is its length.
structure Numbered (clients : List Text) (files : Files) : Prop where
  nodup : clients.Nodup
  lastClassid :
    files.lastClassid = if clients = [] then none else some (decimal clients.length)
  classid_iff : ∀ ip classid, files.classid ip = some classid ↔
    ∃ place, clients[place]? = some ip ∧ classid = decimal (place + 1)

theorem allotted_of_classid {files : Files} {ip classid : Text}
    (h : files.classid ip = some classid) : files.allotted ip = classid := by
  rw [Files.allotted, h]
  rfl

namespace Numbered

variable {clients : List Text} {files : Files} (h : Numbered clients files)

include h

theorem isSome_iff (ip : Text) : (files.classid ip).isSome = true ↔ ip ∈ clients := by
  rw [Option.isSome_iff_exists, List.mem_iff_getElem?]
  constructor
  · rintro ⟨classid, hclassid⟩
    obtain ⟨place, hplace, _⟩ := (h.classid_iff ip classid).mp hclassid
    exact ⟨place, hplace⟩
  · rintro ⟨place, hplace⟩
    exact ⟨_, (h.classid_iff ip _).mpr ⟨place, hplace, rfl⟩⟩

theorem injective {ip other classid : Text} (hip : files.classid ip = some classid)
    (hother : files.classid other = some classid) : ip = other := by
  obtain ⟨place, hplace, rfl⟩ := (h.classid_iff ip classid).mp hip
  obtain ⟨place', hplace', heq⟩ := (h.classid_iff other _).mp hother
  have hsame : place = place' := Nat.succ.inj (Number.toDigits_inj heq)
  rw [← hsame, hplace] at hplace'
  exact Option.some.inj hplace'

theorem allotted_of_notMem {ip : Text} (hip : ip ∉ clients) :
    files.allotted ip = decimal (clients.length + 1) := by
  have hnone : files.classid ip = none := by
    rw [← Option.not_isSome_iff_eq_none, h.isSome_iff]
    exact hip
  rw [Files.allotted, hnone, Option.getD_none, h.lastClassid]
  by_cases hnil : clients = []
  · rw [if_pos hnil, hnil]
    rfl
  · rw [if_neg hnil]
    exact increment_decimal clients.length

-- An id is at most as large as there are clients, with the one it is given to.
theorem exists_allotted (ip : Text) : ∃ place, files.allotted ip = decimal (place + 1) ∧
    place < (if ip ∈ clients then clients else clients ++ [ip]).length := by
  by_cases hip : ip ∈ clients
  · obtain ⟨classid, hclassid⟩ := Option.isSome_iff_exists.mp ((h.isSome_iff ip).mpr hip)
    obtain ⟨place, hplace, rfl⟩ := (h.classid_iff ip classid).mp hclassid
    obtain ⟨hlt, _⟩ := List.getElem?_eq_some_iff.mp hplace
    exact ⟨place, allotted_of_classid hclassid, by rwa [if_pos hip]⟩
  · exact ⟨clients.length, h.allotted_of_notMem hip, by simp [if_neg hip]⟩

theorem disable (ip : Text) : Numbered clients (files.disable ip) := by
  rw [Files.disable]
  split
  · exact ⟨h.nodup, h.lastClassid, h.classid_iff⟩
  · exact h

theorem enable (ip dev : Text) :
    Numbered (if ip ∈ clients then clients else clients ++ [ip]) (files.enable ip dev) := by
  by_cases hip : ip ∈ clients
  · obtain ⟨classid, hclassid⟩ := Option.isSome_iff_exists.mp ((h.isSome_iff ip).mpr hip)
    have hsame : Function.update files.classid ip (some (files.allotted ip)) = files.classid := by
      rw [allotted_of_classid hclassid, ← hclassid, Function.update_eq_self]
    rw [if_pos hip, Files.enable, hsame]
    refine ⟨h.nodup, ?_, h.classid_iff⟩
    rw [if_pos (by rw [hclassid]; rfl)]
    exact h.lastClassid
  · have hnone : ¬ (files.classid ip).isSome = true := by
      rw [h.isSome_iff]
      exact hip
    have hallotted := h.allotted_of_notMem hip
    rw [if_neg hip, Files.enable, hallotted]
    refine ⟨List.nodup_append.mpr ⟨h.nodup, List.nodup_singleton ip, ?_⟩, ?_,
      fun other classid => ?_⟩
    · rintro other hother last hlast rfl
      exact hip (List.mem_singleton.mp hlast ▸ hother)
    · rw [if_neg hnone, if_neg (by simp), List.length_append]
      rfl
    · simp only [concat_getElem?_iff]
      by_cases heq : other = ip
      · subst heq
        have hnot : ∀ place, clients[place]? ≠ some other := fun place hplace =>
          hip (List.mem_of_getElem? hplace)
        simp [hnot, eq_comm]
      · simp [heq, h.classid_iff]

theorem learn (run : Run) : Numbered
    (if run.action.enables ∧ run.ip ∉ clients then clients ++ [run.ip] else clients)
    (files.learn run) := by
  have henable : Numbered (if run.ip ∉ clients then clients ++ [run.ip] else clients)
      (files.enable run.ip run.dev) := by
    rw [ite_not]
    exact h.enable run.ip run.dev
  rw [Files.learn]
  cases run.action with
  | add | update => simpa [Action.enables] using henable
  | delete => exact h.disable run.ip
  | other operation => exact h

end Numbered

theorem clients_concat (runs : List Run) (run : Run) : clients (runs ++ [run]) =
    if run.action.enables ∧ run.ip ∉ clients runs then clients runs ++ [run.ip]
    else clients runs := by
  rw [clients, List.foldl_append, ← clients]
  simp

theorem after_concat (accepts : State → TcCommand → Bool) (runs : List Run) (run : Run) :
    after accepts (runs ++ [run]) =
      (Program.exec (perform accepts) (learnAddress run) (after accepts runs)).2 := by
  rw [after, List.foldl_append]
  rfl

-- After any sequence of runs, whatever tc answered.
theorem numbered_after (accepts : State → TcCommand → Bool) (runs : List Run) :
    Numbered (clients runs) (after accepts runs).toFiles := by
  induction runs using List.reverseRecOn with
  | nil =>
      refine ⟨List.nodup_nil, rfl, fun ip classid => ⟨nofun, ?_⟩⟩
      rintro ⟨place, hplace, _⟩
      cases hplace
  | append_singleton runs run ih =>
      rw [after_concat, toFiles_learnAddress, clients_concat]
      exact ih.learn run

end Clients

end OpenBalenaVpn.Throttle
