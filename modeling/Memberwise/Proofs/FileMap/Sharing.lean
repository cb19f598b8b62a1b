import Memberwise.Proofs.FileMap.Directory
import Memberwise.Proofs.Text.Offset
import Mathlib.Algebra.GroupWithZero.Nat
import Mathlib.Data.List.Induction
import Mathlib.Logic.Function.Basic

/-!
# Clients that share a file

Several clients work on one file. Each of them loads the text of the file and plans an insertion
into it, and applies the insertion later; in between the others do the same, and anybody else may
change the files. Which client acts when is left open: a history is any list of events.

The invariant of a history in which nobody else writes is that the text only grows, by whole
insertions. So what a client has loaded is gone for good once somebody has written, and an insertion
into it can no longer be applied.

The main statement: an insertion is applied exactly if the file still holds what its client loaded,
and otherwise nothing changes; and as long as only clients write, no insertion is lost.
-/

namespace Memberwise

/-! ## What a client remembers -/

/-- A text that a client has loaded, with an insertion planned for it. -/
structure Snapshot where
  text : String
  offset : Nat
  block : String
  insertion : Insertion
  splice : Insertion.splice? text offset block = some insertion

namespace Snapshot

/-- Load the text of a file and plan the insertion of `block` at a byte offset. -/
def load? (files : FileMap) (path : String) (offset : Nat) (block : String) : Option Snapshot :=
  match files.readText? path with
  | none => none
  | some text =>
    match splice : Insertion.splice? text offset block with
    | none => none
    | some insertion => some ⟨text, offset, block, insertion, splice⟩

theorem readText?_of_load? {files : FileMap} {path block : String} {offset : Nat}
    {snapshot : Snapshot} (h : load? files path offset block = some snapshot) :
    files.readText? path = some snapshot.text ∧ snapshot.offset = offset ∧
      snapshot.block = block := by
  rw [load?] at h
  split at h
  · simp at h
  rename_i text hread
  split at h
  · simp at h
  · obtain rfl := Option.some.inj h
    exact ⟨hread, rfl, rfl⟩

/-- The text after the insertion is `front`, an empty line, the block and `back`. -/
structure Cut (snapshot : Snapshot) (front back : String) : Prop where
  text : snapshot.text = front ++ back
  offset : front.utf8ByteSize = snapshot.offset
  insertion : snapshot.insertion.text = front ++ "\n\n" ++ snapshot.block ++ back

theorem exists_cut (snapshot : Snapshot) : ∃ front back, snapshot.Cut front back := by
  obtain ⟨⟨front, back⟩, hcut, hinsertion⟩ := Option.map_eq_some_iff.mp snapshot.splice
  obtain ⟨htext, hoffset⟩ := Text.append_eq_of_splitAt?_eq_some hcut
  refine ⟨String.ofList front, String.ofList back, ⟨?_, ?_, ?_⟩⟩
  · rw [← String.ofList_append, htext, String.ofList_toList]
  · rw [Text.utf8ByteSize_ofList, hoffset]
  · rw [← hinsertion]
    simp only [Insertion.between, String.ofList_append, String.ofList_toList]
    rfl

/-- How many bytes the insertion adds. -/
def growth (snapshot : Snapshot) : Nat := 2 + snapshot.block.utf8ByteSize

theorem utf8ByteSize_insertion (snapshot : Snapshot) :
    snapshot.insertion.text.utf8ByteSize = snapshot.text.utf8ByteSize + snapshot.growth := by
  obtain ⟨front, back, hcut⟩ := snapshot.exists_cut
  have hline : "\n\n".utf8ByteSize = 2 := rfl
  rw [hcut.insertion, hcut.text, growth]
  simp only [String.utf8ByteSize_append, hline]
  omega

theorem text_sublist_insertion (snapshot : Snapshot) :
    snapshot.text.toList.Sublist snapshot.insertion.text.toList := by
  obtain ⟨front, back, hcut⟩ := snapshot.exists_cut
  rw [hcut.insertion, hcut.text]
  simp only [String.toList_append, List.append_assoc]
  refine (List.Sublist.refl _).append ?_
  rw [← List.append_assoc]
  exact List.sublist_append_right _ _

end Snapshot

/-! ## Histories -/

/-- Files that clients work on, with what each of them remembers. -/
structure Shared (Client : Type) where
  files : FileMap
  proper : files.Proper
  memory : Client → Option Snapshot

/-- Something that happens to the files. -/
inductive Event (Client : Type) where
  | load (client : Client) (offset : Nat) (block : String)
  /-- An attempt to apply, with a choice of names for temporary files. -/
  | apply (client : Client) (naming : FileMap.Naming)
  /-- Somebody else leaves these files behind. -/
  | outside (files : FileMap) (proper : files.Proper)

def Event.isOutside {Client : Type} : Event Client → Bool
  | .outside _ _ => true
  | _ => false

namespace Shared

variable {Client : Type}

/-- The files before anybody has loaded anything. -/
def start (files : FileMap) (proper : files.Proper) : Shared Client := ⟨files, proper, fun _ ↦ none⟩

/-- Apply what a client has planned: the result, and the files afterwards. -/
def attempt (shared : Shared Client) (naming : FileMap.Naming) (path : String)
    (snapshot : Snapshot) : Except FileError Unit × FileMap :=
  shared.files.applyBy naming path snapshot.text snapshot.insertion

theorem application (shared : Shared Client) (naming : FileMap.Naming) (path : String)
    (snapshot : Snapshot) :
    FileMap.Application path snapshot.text snapshot.insertion shared.files
      (shared.attempt naming path snapshot).1 (shared.attempt naming path snapshot).2 :=
  shared.proper.application naming path snapshot.text snapshot.insertion

/-- The files after an attempt, with what the clients remember. -/
def afterAttempt (shared : Shared Client) (naming : FileMap.Naming) (path : String)
    (snapshot : Snapshot) : Shared Client where
  files := (shared.attempt naming path snapshot).2
  proper := (shared.application naming path snapshot).proper shared.proper
  memory := shared.memory

variable [DecidableEq Client]

/-- What an event leaves behind. A client that has loaded nothing applies nothing. -/
def step (path : String) (shared : Shared Client) : Event Client → Shared Client
  | .load client offset block =>
    { shared with
      memory := Function.update shared.memory client
        (Snapshot.load? shared.files path offset block) }
  | .apply client naming =>
    ((shared.memory client).map (shared.afterAttempt naming path)).getD shared
  | .outside files proper => { shared with files, proper }

def run (path : String) (shared : Shared Client) (history : List (Event Client)) : Shared Client :=
  history.foldl (step path) shared

@[simp] theorem run_nil (path : String) (shared : Shared Client) : shared.run path [] = shared :=
  rfl

@[simp] theorem run_cons (path : String) (shared : Shared Client) (event : Event Client)
    (later : List (Event Client)) :
    shared.run path (event :: later) = (shared.step path event).run path later :=
  rfl

theorem run_concat (path : String) (shared : Shared Client) (earlier : List (Event Client))
    (event : Event Client) :
    shared.run path (earlier ++ [event]) = (shared.run path earlier).step path event := by
  rw [run, List.foldl_append]
  rfl

/-- What an event inserts into the file. -/
def written? (path : String) (shared : Shared Client) : Event Client → Option Snapshot
  | .apply client naming =>
    (shared.memory client).filter fun snapshot ↦ (shared.attempt naming path snapshot).1.isOk
  | _ => none

/-- What a history inserts into the file, in order. -/
def written (path : String) (shared : Shared Client) : List (Event Client) → List Snapshot
  | [] => []
  | event :: later =>
    (shared.written? path event).toList ++ (shared.step path event).written path later

/-! ## What was loaded -/

/-- The last load of a client in a history read the text of the snapshot. -/
def LastLoad (path : String) (shared : Shared Client) (history : List (Event Client))
    (client : Client) (snapshot : Snapshot) : Prop :=
  ∃ earlier later,
    history = earlier ++ .load client snapshot.offset snapshot.block :: later ∧
    (∀ offset block, .load client offset block ∉ later) ∧
    (shared.run path earlier).files.readText? path = some snapshot.text

theorem LastLoad.concat {path : String} {shared : Shared Client} {history : List (Event Client)}
    {client : Client} {snapshot : Snapshot} (h : LastLoad path shared history client snapshot)
    {event : Event Client} (hevent : ∀ offset block, .load client offset block ≠ event) :
    LastLoad path shared (history ++ [event]) client snapshot := by
  obtain ⟨earlier, later, rfl, hlater, hread⟩ := h
  refine ⟨earlier, later ++ [event], by simp, ?_, hread⟩
  intro offset block hmem
  rcases List.mem_append.mp hmem with hmem | hmem
  · exact hlater offset block hmem
  · exact hevent offset block (List.mem_singleton.mp hmem)

@[simp] theorem memory_step_load (path : String) (shared : Shared Client) (client : Client)
    (offset : Nat) (block : String) :
    (shared.step path (.load client offset block)).memory =
      Function.update shared.memory client (Snapshot.load? shared.files path offset block) :=
  rfl

@[simp] theorem memory_step_apply (path : String) (shared : Shared Client) (client : Client)
    (naming : FileMap.Naming) :
    (shared.step path (.apply client naming)).memory = shared.memory := by
  rw [step]
  cases shared.memory client <;> rfl

theorem files_step_apply {path : String} {shared : Shared Client} {client : Client}
    {snapshot : Snapshot} (h : shared.memory client = some snapshot) (naming : FileMap.Naming) :
    (shared.step path (.apply client naming)).files =
      (shared.attempt naming path snapshot).2 := by
  rw [step, h]
  rfl

/-- What a client remembers, it has loaded, and nothing since. -/
theorem lastLoad_of_memory (path : String) (files : FileMap) (proper : files.Proper)
    (history : List (Event Client)) {client : Client} {snapshot : Snapshot}
    (h : ((start files proper).run path history).memory client = some snapshot) :
    LastLoad path (start files proper) history client snapshot := by
  induction history using List.reverseRecOn with
  | nil => simp [start] at h
  | append_singleton history event ih =>
    rw [run_concat] at h
    cases event with
    | load other offset block =>
      by_cases hother : client = other
      · subst hother
        rw [memory_step_load, Function.update_self] at h
        obtain ⟨hread, rfl, rfl⟩ := Snapshot.readText?_of_load? h
        exact ⟨history, [], rfl, fun _ _ ↦ List.not_mem_nil, hread⟩
      · rw [memory_step_load, Function.update_of_ne hother] at h
        exact (ih h).concat fun offset block heq ↦ hother (Event.load.inj heq).1
    | apply other naming =>
      rw [memory_step_apply] at h
      exact (ih h).concat (by simp)
    | outside others proper => exact (ih h).concat (by simp)

/-! ## An attempt -/

/-- What comes of an attempt to apply a planned insertion. -/
structure Guarded (path : String) (snapshot : Snapshot) (before : FileMap)
    (result : Except FileError Unit) (after : FileMap) : Prop where
  ok_iff : result = .ok () ↔ before.readText? path = some snapshot.text
  /-- The insertion is in the text that was loaded, at the offset that was chosen. -/
  written : result = .ok () → ∃ front back, snapshot.text = front ++ back ∧
    front.utf8ByteSize = snapshot.offset ∧
    after.readText? path = some (front ++ "\n\n" ++ snapshot.block ++ back)
  elsewhere : ∀ other, before.resolve other ≠ before.resolve path →
    after.find? other = before.find? other
  changed : ∀ current, before.readText? path = some current → current ≠ snapshot.text →
    result = .error (.changed path)
  unreadable : before.readText? path = none → result = .error (.unreadableAgain path)
  refused : result ≠ .ok () → after = before

theorem Guarded.of_application {path : String} {snapshot : Snapshot} {before after : FileMap}
    {result : Except FileError Unit}
    (h : FileMap.Application path snapshot.text snapshot.insertion before result after) :
    Guarded path snapshot before result after := by
  cases h with
  | @written after names hread hresolve hafter =>
    obtain ⟨front, back, hcut⟩ := snapshot.exists_cut
    have hnew := hafter.readText?_eq hresolve
    refine ⟨by simp [hread], fun _ ↦ ⟨front, back, hcut.text, hcut.offset, hcut.insertion ▸ hnew⟩,
      fun other hother ↦ ?_, by simp [hread, eq_comm], by simp [hread], by simp⟩
    rw [hafter.find?_eq, if_neg]
    intro hkey
    obtain ⟨others, hothers, hjoined⟩ := Option.map_eq_some_iff.mp hkey
    have hnames := FileMap.pathNames_pathOfNames (FileMap.isName_of_resolve hresolve)
    have hsame := FileMap.pathNames_pathOfNames (FileMap.isName_of_resolve hothers)
    rw [hjoined, hnames] at hsame
    exact hother (by rw [hothers, hresolve, hsame])
  | @changed current hread hne =>
    exact ⟨by simp [hread, hne], by simp, fun _ _ ↦ rfl, fun _ _ _ ↦ rfl, by simp [hread],
      fun _ ↦ rfl⟩
  | unreadable hread =>
    exact ⟨by simp [hread], by simp, fun _ _ ↦ rfl, by simp [hread], fun _ ↦ rfl, fun _ ↦ rfl⟩

/-! ## Growth -/

/-- Insertions one after another, each into the text that the one before it left. -/
inductive Grown : String → List Snapshot → String → Prop where
  | done (text : String) : Grown text [] text
  | insert {snapshot : Snapshot} {others : List Snapshot} {final : String}
      (h : Grown snapshot.insertion.text others final) :
      Grown snapshot.text (snapshot :: others) final

namespace Grown

variable {text final : String} {inserted : List Snapshot}

theorem utf8ByteSize_eq (h : Grown text inserted final) :
    final.utf8ByteSize = text.utf8ByteSize + (inserted.map Snapshot.growth).sum := by
  induction h with
  | done text => simp
  | insert h ih =>
    rw [ih, Snapshot.utf8ByteSize_insertion, List.map_cons, List.sum_cons]
    omega

theorem sublist (h : Grown text inserted final) : text.toList.Sublist final.toList := by
  induction h with
  | done text => exact List.Sublist.refl _
  | insert h ih => exact (Snapshot.text_sublist_insertion _).trans ih

theorem utf8ByteSize_le (h : Grown text inserted final) :
    ∀ snapshot ∈ inserted, text.utf8ByteSize ≤ snapshot.text.utf8ByteSize := by
  induction h with
  | done text => simp
  | @insert first others final h ih =>
    intro snapshot hmem
    rcases List.mem_cons.mp hmem with rfl | hmem
    · exact Nat.le_refl _
    · have hgrown := ih snapshot hmem
      rw [Snapshot.utf8ByteSize_insertion] at hgrown
      omega

/-- No text comes back, since each is shorter than the next. -/
theorem nodup (h : Grown text inserted final) : (inserted.map Snapshot.text).Nodup := by
  induction h with
  | done text => simp
  | @insert first others final h ih =>
    rw [List.map_cons, List.nodup_cons]
    refine ⟨fun hmem ↦ ?_, ih⟩
    obtain ⟨snapshot, hsnapshot, heq⟩ := List.mem_map.mp hmem
    have hle := h.utf8ByteSize_le snapshot hsnapshot
    rw [Snapshot.utf8ByteSize_insertion, heq, Snapshot.growth] at hle
    omega

end Grown

/-- An event that is not from outside leaves the text, or one insertion more in it. -/
theorem readText?_step {path text : String} {shared : Shared Client}
    (hread : shared.files.readText? path = some text) {event : Event Client}
    (hevent : event.isOutside = false) :
    (shared.written? path event = none ∧
      (shared.step path event).files.readText? path = some text) ∨
    ∃ snapshot, shared.written? path event = some snapshot ∧ snapshot.text = text ∧
      (shared.step path event).files.readText? path = some snapshot.insertion.text := by
  cases event with
  | load client offset block => exact Or.inl ⟨rfl, hread⟩
  | outside files proper => simp [Event.isOutside] at hevent
  | apply client naming =>
    cases hmemory : shared.memory client with
    | none => exact Or.inl ⟨by simp [written?, hmemory], by simp [step, hmemory, hread]⟩
    | some snapshot =>
      have hwritten : shared.written? path (.apply client naming) =
          if (shared.attempt naming path snapshot).1.isOk then some snapshot else none := by
        rw [written?, hmemory, Option.filter_some]
      rw [hwritten, files_step_apply hmemory]
      have happlication := shared.application naming path snapshot
      generalize shared.attempt naming path snapshot = outcome at happlication ⊢
      obtain ⟨result, after⟩ := outcome
      cases happlication with
      | written hloaded hresolve hafter =>
        have htext : snapshot.text = text := Option.some.inj (hloaded.symm.trans hread)
        exact Or.inr ⟨snapshot, rfl, htext, hafter.readText?_eq hresolve⟩
      | changed hother hne => exact Or.inl ⟨rfl, hread⟩
      | unreadable hnone => exact Or.inl ⟨rfl, hread⟩

/-- As long as only clients write, the text is grown by what they insert. -/
theorem run_grown {path text : String} {shared : Shared Client}
    (hread : shared.files.readText? path = some text) {history : List (Event Client)}
    (hhistory : ∀ event ∈ history, event.isOutside = false) :
    ∃ final, (shared.run path history).files.readText? path = some final ∧
      Grown text (shared.written path history) final := by
  induction history generalizing shared text with
  | nil => exact ⟨text, hread, .done text⟩
  | cons event later ih =>
    have hlater : ∀ next ∈ later, next.isOutside = false :=
      fun next hnext ↦ hhistory next (List.mem_cons_of_mem event hnext)
    rw [run_cons, written]
    rcases readText?_step hread (hhistory event List.mem_cons_self) with
      ⟨hnone, hsame⟩ | ⟨snapshot, hwritten, rfl, hnew⟩
    · rw [hnone]
      exact ih hsame hlater
    · obtain ⟨final, hfinal, hgrown⟩ := ih hnew hlater
      rw [hwritten]
      exact ⟨final, hfinal, .insert hgrown⟩

/-- Whatever others do between the load of a client and its attempt, its insertion goes into the
text that it has loaded, or nowhere. If nobody else writes, no insertion is lost, and no two of them
go into the same text. -/
theorem run_start_keeps_updates (path : String) (files : FileMap) (proper : files.Proper)
    (history : List (Event Client)) :
    (∀ client snapshot, ((start files proper).run path history).memory client = some snapshot →
      LastLoad path (start files proper) history client snapshot ∧
      ∀ naming, Guarded path snapshot ((start files proper).run path history).files
        (((start files proper).run path history).attempt naming path snapshot).1
        ((start files proper).run path (history ++ [.apply client naming])).files) ∧
    ((∀ event ∈ history, event.isOutside = false) →
      ∀ text, files.readText? path = some text →
        ∃ final, ((start files proper).run path history).files.readText? path = some final ∧
          final.utf8ByteSize = text.utf8ByteSize +
            (((start files proper).written path history).map fun snapshot ↦
              2 + snapshot.block.utf8ByteSize).sum ∧
          text.toList.Sublist final.toList ∧
          (((start files proper).written path history).map Snapshot.text).Nodup) := by
  constructor
  · intro client snapshot hmemory
    refine ⟨lastLoad_of_memory path files proper history hmemory, fun naming ↦ ?_⟩
    rw [run_concat, files_step_apply hmemory]
    exact Guarded.of_application (application _ naming path snapshot)
  · intro hhistory text hread
    have hstart : (start files proper : Shared Client).files.readText? path = some text := hread
    obtain ⟨final, hfinal, hgrown⟩ := run_grown hstart hhistory
    exact ⟨final, hfinal, hgrown.utf8ByteSize_eq, hgrown.sublist, hgrown.nodup⟩

/-- Two clients load the same text. The second one applies its insertion, and the first one then
comes too late. -/
theorem run_start_keeps_updates_of_two_clients :
    let shared : Shared Bool := start ⟨[("lib.rs", "struct S;".toUTF8)]⟩ (by decide +kernel)
    let history : List (Event Bool) :=
      [.load false 9 "impl S {}", .load true 0 "// T", .apply true .longest]
    (∃ snapshot, (shared.run "lib.rs" history).memory false = some snapshot ∧
      ((shared.run "lib.rs" history).attempt .longest "lib.rs" snapshot).1 =
        .error (.changed "lib.rs")) ∧
    ∃ final, (shared.run "lib.rs" history).files.readText? "lib.rs" = some final ∧
      final.utf8ByteSize = "struct S;".utf8ByteSize + (2 + "// T".utf8ByteSize) := by
  intro shared history
  have hmemory : ((shared.run "lib.rs" history).memory false).map Snapshot.text =
      some "struct S;" := by
    decide +kernel
  have hafter : (shared.run "lib.rs" history).files.readText? "lib.rs" =
      some "\n\n// Tstruct S;" := by
    decide +kernel
  have hwritten : ((start shared.files shared.proper).written "lib.rs" history).map
      (fun snapshot ↦ 2 + snapshot.block.utf8ByteSize) = [2 + "// T".utf8ByteSize] := by
    decide +kernel
  obtain ⟨hattempts, hgrowth⟩ := run_start_keeps_updates "lib.rs" shared.files shared.proper history
  constructor
  · obtain ⟨snapshot, hsnapshot, htext⟩ := Option.map_eq_some_iff.mp hmemory
    have hguarded := (hattempts false snapshot hsnapshot).2 .longest
    refine ⟨snapshot, hsnapshot, hguarded.changed _ hafter ?_⟩
    rw [htext]
    decide
  · obtain ⟨final, hfinal, hsize, -, -⟩ := hgrowth (by decide) "struct S;" (by decide +kernel)
    refine ⟨final, hfinal, hsize.trans ?_⟩
    rw [hwritten, List.sum_singleton]

end Shared

end Memberwise
