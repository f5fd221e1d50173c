import Galley.Host.Machine
import Galley.Proofs.Host.Dialogue
import Galley.Proofs.Host.FileTree
/-!
# Confined programs

What a host with a file tree may answer, and what that does to the tree, when programs are confined
to the directories they run in. Anything may fail, and a failed request may have done a part of its
work; only directories are always removed when they are there.

Machines with confined programs are such hosts (`Machine.runs_transcript`).
-/
namespace Galley.Host

/-- The answer of a host to a request, with the tree before and the one after. -/
inductive Responds (current : Location) : FileTree → Exchange → FileTree → Prop
  | currentDirectory (tree : FileTree) (answer : Except Failure String) :
    Responds current tree ⟨.currentDirectory, answer⟩ tree
  | temporaryDirectory (tree : FileTree) (answer : String) :
    Responds current tree ⟨.temporaryDirectory, answer⟩ tree
  | isPresent (tree : FileTree) (path : String) (answer : Bool) :
    Responds current tree ⟨.isPresent path, answer⟩ tree
  | read (tree : FileTree) (path : String) (answer : Except Failure ByteArray) :
    Responds current tree ⟨.read path, answer⟩ tree
  | written {tree after : FileTree} {path : String} {bytes : ByteArray}
    (written : tree.write current path bytes = .ok after) :
    Responds current tree ⟨.write path bytes, .ok ()⟩ after
  | unwritten (tree : FileTree) (path : String) (bytes : ByteArray) (reason : Failure) :
    Responds current tree ⟨.write path bytes, .error reason⟩ tree
  /-- A write that fails may leave a file with other bytes. -/
  | brokenOff {tree after : FileTree} {path : String} {other : ByteArray} (bytes : ByteArray)
    (reason : Failure) (written : tree.write current path other = .ok after) :
    Responds current tree ⟨.write path bytes, .error reason⟩ after
  | made {tree after : FileTree} {path : String}
    (made : tree.makeDirectories current path = .ok after) :
    Responds current tree ⟨.makeDirectories path, .ok ()⟩ after
  /-- Some of the directories may be there when the making of another one fails. -/
  | madeSome {tree after : FileTree} {path : String} (count : Nat) (reason : Failure)
    (made : tree.makeAlong (FileTree.origin current path)
      ((Text.splitOnChar '/' path).take count) = .ok after) :
    Responds current tree ⟨.makeDirectories path, .error reason⟩ after
  /-- A scratch directory is new. -/
  | scratch {tree : FileTree} {parent name : String} {location : Location}
    {entries : List (String × FileTree)}
    (found : tree.find current parent = .ok (location, .directory entries))
    (isName : FileTree.IsName name) (fresh : FileTree.lookup name entries = none) :
    Responds current tree ⟨.makeScratch parent, .ok (Path.join parent name)⟩
      (tree.set (location ++ [name]) (some (.directory [])))
  | noScratch (tree : FileTree) (parent : String) (reason : Failure) :
    Responds current tree ⟨.makeScratch parent, .error reason⟩ tree
  | removed {tree after : FileTree} {path : String}
    (removed : tree.removeAll current path = .ok after) :
    Responds current tree ⟨.removeAll path, .ok ()⟩ after
  | absent {tree : FileTree} {path : String} {reason : Failure}
    (absent : tree.removeAll current path = .error reason) :
    Responds current tree ⟨.removeAll path, .error reason⟩ tree
  /-- A program leaves anything in the place of its directory, and all else as it was. -/
  | ran {tree entry : FileTree} {invocation : Invocation} {location : Location}
    (found : tree.find current invocation.directory = .ok (location, entry))
    (content : Option FileTree) (outcome : Outcome) :
    Responds current tree ⟨.run invocation, outcome⟩ (tree.set location content)
  | idle (tree : FileTree) (invocation : Invocation) (outcome : Outcome) :
    Responds current tree ⟨.run invocation, outcome⟩ tree

/-- The answers of a host to one request after the other. -/
inductive Runs (current : Location) : FileTree → List Exchange → FileTree → Prop
  | nil (tree : FileTree) : Runs current tree [] tree
  | cons {tree between after : FileTree} {exchange : Exchange} {rest : List Exchange}
    (responds : Responds current tree exchange between) (runs : Runs current between rest after) :
    Runs current tree (exchange :: rest) after

variable {current : Location} {tree after : FileTree}

theorem runs_nil_iff : Runs current tree [] after ↔ after = tree := by
  constructor
  · intro runs
    cases runs
    rfl
  · rintro rfl
    exact .nil after

theorem runs_cons_iff {exchange : Exchange} {rest : List Exchange} :
    Runs current tree (exchange :: rest) after ↔
      ∃ between, Responds current tree exchange between ∧ Runs current between rest after := by
  constructor
  · intro runs
    cases runs with
    | cons responds runs => exact ⟨_, responds, runs⟩
  · rintro ⟨between, responds, runs⟩
    exact .cons responds runs

theorem runs_append_iff {first second : List Exchange} :
    Runs current tree (first ++ second) after ↔
      ∃ between, Runs current tree first between ∧ Runs current between second after := by
  induction first generalizing tree with
  | nil => simp [runs_nil_iff]
  | cons exchange first ih =>
    simp only [List.cons_append, runs_cons_iff, ih]
    constructor
    · rintro ⟨next, responds, between, first, second⟩
      exact ⟨between, ⟨next, responds, first⟩, second⟩
    · rintro ⟨between, ⟨next, responds, first⟩, second⟩
      exact ⟨next, responds, between, first, second⟩

/-- Requests that only look at the file tree. -/
inductive Request.Looks : Request → Prop
  | isPresent (path : String) : Looks (.isPresent path)
  | read (path : String) : Looks (.read path)

theorem eq_of_looks {log : List Exchange} (looks : ∀ exchange ∈ log, exchange.request.Looks)
    (runs : Runs current tree log after) : after = tree := by
  induction log generalizing tree with
  | nil => exact runs_nil_iff.mp runs
  | cons exchange log ih =>
    rw [List.forall_mem_cons] at looks
    obtain ⟨between, responds, rest⟩ := runs_cons_iff.mp runs
    have unchanged : between = tree := by
      obtain ⟨here, -⟩ := looks
      cases responds with
      | isPresent | read => rfl
      | _ => cases here
    rw [ih looks.2 rest, unchanged]

/-! ### Machines -/

/-- Programs that leave what is outside of the directories they run in. -/
def Programs.Confined (programs : Programs) : Prop :=
  ∀ invocation location tree, ∃ content,
    (programs invocation location tree).2 = tree.set location content

namespace Machine

private theorem utf8ByteSize_ofList_le (chars : List Char) :
    (String.ofList chars).utf8ByteSize ≤ 4 * chars.length := by
  induction chars with
  | nil => simp
  | cons c rest ih =>
    have one := c.utf8Size_le_four
    rw [String.ofList_cons, String.utf8ByteSize_append, String.utf8ByteSize_singleton,
      List.length_cons]
    omega

private theorem isAlphanum_of_mem_digits36 {width n : Nat} {c : Char}
    (member : c ∈ digits36 width n) : c.isAlphanum = true := by
  have digits : ∀ digit < 36, (if digit < 10 then Char.ofNat (48 + digit)
      else Char.ofNat (87 + digit)).isAlphanum = true := by decide
  induction width generalizing n with
  | zero => cases member
  | succ width ih =>
    rcases List.mem_append.mp member with member | member
    · exact ih member
    · rw [List.mem_singleton.mp member]
      exact digits _ (Nat.mod_lt n (by decide))

private theorem length_digits36 (width n : Nat) : (digits36 width n).length = width := by
  induction width generalizing n with
  | zero => rfl
  | succ width ih => simp [digits36, ih]

theorem isName_scratchName (n : Nat) : FileTree.IsName (scratchName n) := by
  have chars : (scratchName n).toList = "folio-export-".toList ++ digits36 6 n := by
    simp [scratchName]
  have first : (scratchName n).toList.head? = some 'f' := by rw [chars]; rfl
  -- names are made of letters, digits and hyphens
  have plain (c : Char) (other : c.isAlphanum = false) (absent : c ∉ "folio-export-".toList) :
      c ∉ (scratchName n).toList := by
    rw [chars, List.mem_append, not_or]
    refine ⟨absent, fun member => ?_⟩
    rw [isAlphanum_of_mem_digits36 member] at other
    cases other
  have short : (scratchName n).utf8ByteSize ≤ 255 := by
    have digits := utf8ByteSize_ofList_le (digits36 6 n)
    have word : "folio-export-".utf8ByteSize = 13 := by decide
    rw [length_digits36] at digits
    rw [scratchName, String.utf8ByteSize_append, word]
    omega
  obtain ⟨busy, down⟩ := FileTree.busy_of_head? first (by decide)
  exact ⟨busy, down, short, plain _ (by decide) (by decide), plain _ (by decide) (by decide)⟩

/-- The answers of a machine with confined programs are among those of such a host. -/
theorem responds_handler {programs : Programs} (confined : programs.Confined) (request : Request)
    (machine : Machine) :
    Responds machine.current machine.tree ⟨request, (handler programs request machine).1⟩
        (handler programs request machine).2.tree ∧
      (handler programs request machine).2.current = machine.current := by
  cases request with
  | currentDirectory => exact ⟨.currentDirectory _ _, rfl⟩
  | temporaryDirectory => exact ⟨.temporaryDirectory _ _, rfl⟩
  | isPresent path => exact ⟨.isPresent _ _ _, rfl⟩
  | read path => exact ⟨.read _ _ _, rfl⟩
  | write path bytes =>
    unfold handler
    dsimp only
    cases written : machine.tree.write machine.current path bytes with
    | ok after => exact ⟨.written written, rfl⟩
    | error reason => exact ⟨.unwritten _ _ _ reason, rfl⟩
  | makeDirectories path =>
    unfold handler
    dsimp only
    cases made : machine.tree.makeDirectories machine.current path with
    | ok after => exact ⟨.made made, rfl⟩
    -- a machine makes all of the directories or none
    | error reason => exact ⟨.madeSome 0 reason rfl, rfl⟩
  | makeScratch parent =>
    unfold handler
    dsimp only
    cases made : machine.makeScratch parent with
    | error reason => exact ⟨.noScratch _ _ reason, rfl⟩
    | ok result =>
      obtain ⟨⟨location, entry⟩, found, made⟩ := bind_eq_ok_iff.mp made
      cases entry with
      | file bytes => cases made
      | directory entries =>
        dsimp only at made
        cases fresh : freshName? entries with
        | none => simp [fresh] at made
        | some name =>
          simp only [fresh] at made
          cases made
          have absent : FileTree.lookup name entries = none := by
            unfold freshName? at fresh
            simpa using List.find?_some fresh
          obtain ⟨n, -, rfl⟩ := List.mem_map.mp (List.mem_of_find?_eq_some fresh)
          exact ⟨.scratch found (isName_scratchName n) absent, rfl⟩
  | removeAll path =>
    unfold handler
    dsimp only
    cases removed : machine.tree.removeAll machine.current path with
    | ok after => exact ⟨.removed removed, rfl⟩
    | error reason => exact ⟨.absent removed, rfl⟩
  | run invocation =>
    unfold handler invoke
    dsimp only
    split
    · exact ⟨.idle _ _ _, rfl⟩
    · split
      · exact ⟨.idle _ _ _, rfl⟩
      · exact ⟨.idle _ _ _, rfl⟩
      next location entries found =>
        obtain ⟨content, left⟩ := confined invocation location machine.tree
        refine ⟨?_, rfl⟩
        dsimp only
        rw [left]
        exact .ran found content _

/-- What a machine with confined programs does is what such a host may do. -/
theorem runs_transcript {α : Type} {programs : Programs} (confined : programs.Confined)
    (action : Action α) (machine : Machine) :
    Runs machine.current machine.tree (Action.transcript (handler programs) action machine)
      (run programs action machine).2.tree := by
  induction action generalizing machine with
  | done value => exact .nil machine.tree
  | ask request next ih =>
    obtain ⟨responds, same⟩ := responds_handler confined request machine
    have rest := ih (handler programs request machine).1 (handler programs request machine).2
    rw [same] at rest
    exact .cons responds rest

end Machine
end Galley.Host
