import FirstKernel.FatRuns
import FirstKernel.FatStores

/-!
# The file system without its disk

What the file system is for. A `Catalog` names files and directories by
their paths; a path is the places that lead to it from the root, last
place first, and each directory has sixteen. There are no sectors and no
chains, only a count of the free clusters. A new file takes the first
vacant place of the current directory, and what is removed goes with
everything below it, of which it only gives its own clusters back.
-/

namespace FirstKernel

structure Node where
  name : Buffer 11
  size : UInt32
  isDir : Bool
  clusters : Nat
  /-- What is printed of a file, cluster by cluster. -/
  texts : List Text

structure Catalog where
  node : List Slot → Option Node
  cwd : List Slot
  free : Nat
  printed : List Text

namespace Catalog

/-- Place `i` of the current directory. -/
def entry (c : Catalog) (i : Slot) : Option Node := c.node (i :: c.cwd)

def print (messages : List Text) (c : Catalog) : Catalog :=
  { c with printed := c.printed ++ messages }

/-- Names of 7-bit characters match the nodes that have them. -/
def isNamed (name : CString) (n : Node) : Prop :=
  nameOf n.name = padded 8 name ∧ ∀ m, (padded 8 name m).toNat < 128

instance (name : CString) (n : Node) : Decidable (isNamed name n) :=
  inferInstanceAs (Decidable (_ ∧ _))

/-- The first place with the name. -/
def find (name : CString) (c : Catalog) : Option Slot :=
  Fin.findSome? fun i =>
    match c.entry i with
    | some n => if isNamed name n then some i else none
    | none => none

/-- The first place with nothing in it. -/
def vacant (c : Catalog) : Option Slot :=
  Fin.findSome? fun i =>
    match c.entry i with
    | some _ => none
    | none => some i

def create (dirFull : Text) (n : Node) (report : List Text) (c : Catalog) : Catalog :=
  if c.free = 0 then c.print [text "Error: disk is full\n"]
  else
    match c.vacant with
    | none => c.print [dirFull]
    | some i =>
        { c with
          node := Function.update c.node (i :: c.cwd) (some n)
          free := c.free - 1
          printed := c.printed ++ report }

def remove (name : CString) (c : Catalog) : Catalog :=
  match c.find name with
  | none => c.print [text "Error: file not fount.\n"]
  | some i =>
      { c with
        node := fun p => if (i :: c.cwd) <:+ p then none else c.node p
        free := c.free + ((c.entry i).map Node.clusters).getD 0
        printed := c.printed ++
          [text "file or directory '", name.chars, text "' deleted.\n"] }

def enter (name : CString) (c : Catalog) : Catalog :=
  if name = slash ∨ name = dotDot then
    { c with
      cwd := []
      printed := c.printed ++ [text "current position: root directory\n"] }
  else
    match c.find name with
    | none => c.print [text "Error: directory not found\n"]
    | some i =>
        if (c.entry i).any Node.isDir then
          { c with
            cwd := i :: c.cwd
            printed := c.printed ++ [text "Entering the directory '", name.chars, text "'\n"] }
        else
          c.print [text "Error: '", name.chars, text "' this is a file not a directory\n"]

def read (name : CString) (c : Catalog) : Catalog :=
  match c.find name with
  | none => c.print [text "Error: File not found.\n"]
  | some i => c.print ([text "\n"] ++ ((c.entry i).map Node.texts).getD [] ++ [text "\n\n"])

/-- The line of a directory's listing for one node. -/
def listNode (n : Node) : List Text :=
  let filename := (stringAt (List.ofFn (nameOf n.name))).chars
  let ext := (stringAt (List.ofFn (extOf n.name))).chars
  if n.isDir then [text "[DIR] ", filename, text "\n"]
  else [text "File: ", filename, text ".", ext, text " (", itoa n.size.toInt32, text " bytes)\n"]

def list (c : Catalog) : Catalog :=
  let title := if c.cwd = [] then text "\n--- ROOT DIR ---\n" else text "\n--- FOLDER DIR ---\n"
  let nodes := (List.finRange 16).filterMap c.entry
  c.print (title :: (nodes.flatMap listNode ++
    if nodes = [] then [text "Files not found\n", text "---------------\n"] else []))

def exec : Call → Catalog → Catalog
  | .writeFile filename content, c =>
      c.create (text "Error: cannot create more file within the main root\n")
        ⟨filename.bytes, UInt32.ofNat (strlen content), false, 1, [content.chars.take 511]⟩
        [text "file '", List.ofFn filename.bytes, text "' save successfuly.\n"]
  | .makeDirectory dirname, c =>
      c.create (text "Error: root dir is full\n") ⟨dirName dirname, 0, true, 1, []⟩
        [text "Directory '", dirname.chars, text "' successfuly create\n"]
  | .removeFile filename, c => c.remove filename
  | .changeDirectory dirname, c => c.enter dirname
  | .catFile filename, c => c.read filename
  | .listFiles, c => c.list

/-- A call always returns. -/
def step (call : Call) (c : Catalog) : Except Fault Catalog := .ok (exec call c)

/-- A call that a catalog can answer: no name starts with the deletion mark, and no directory is
read as a file. -/
structure Plain (call : Call) (c : Catalog) : Prop where
  unmarked : ∀ name, call.newName = some name → name 0 ≠ 0xE5
  readsFile : ∀ filename i n, call = .catFile filename → c.find filename = some i →
    c.entry i = some n → n.isDir = false

/-- The catalog of a formatted volume. -/
def blank : Catalog := ⟨fun _ => none, [], 254, []⟩

/-! ## Searches -/

theorem find_eq_some {c : Catalog} {name : CString} {i : Slot} :
    c.find name = some i ↔ (∃ n, c.entry i = some n ∧ isNamed name n) ∧
      ∀ j < i, ∀ n, c.entry j = some n → ¬isNamed name n := by
  rw [find, Fin.findSome?_eq_some_iff]
  constructor
  · rintro ⟨k, hk, hlt⟩
    split at hk
    · next n hn =>
        split at hk
        · next hnamed =>
            obtain rfl := Option.some.inj hk
            refine ⟨⟨n, hn, hnamed⟩, fun j hj m hm hnamed' => ?_⟩
            have hnone := hlt j hj
            simp only [hm, if_pos hnamed', reduceCtorEq] at hnone
        · cases hk
    · cases hk
  · rintro ⟨⟨n, hn, hnamed⟩, hlt⟩
    refine ⟨i, by simp only [hn, if_pos hnamed], fun j hj => ?_⟩
    cases hm : c.entry j with
    | none => rfl
    | some m => exact if_neg (hlt j hj m hm)

theorem vacant_eq_some {c : Catalog} {i : Slot} :
    c.vacant = some i ↔ c.entry i = none ∧ ∀ j < i, c.entry j ≠ none := by
  rw [vacant, Fin.findSome?_eq_some_iff]
  constructor
  · rintro ⟨k, hk, hlt⟩
    split at hk
    · cases hk
    · next hnone =>
        obtain rfl := Option.some.inj hk
        refine ⟨hnone, fun j hj hj' => ?_⟩
        have hfound := hlt j hj
        simp only [hj', reduceCtorEq] at hfound
  · rintro ⟨hnone, hlt⟩
    refine ⟨i, by simp only [hnone], fun j hj => ?_⟩
    obtain ⟨n, hn⟩ := Option.ne_none_iff_exists'.mp (hlt j hj)
    simp only [hn]

/-! ## What a call does -/

section

variable {c : Catalog} {name : CString} {i : Slot}

theorem remove_none (h : c.find name = none) :
    c.remove name = c.print [text "Error: file not fount.\n"] := by
  unfold remove
  rw [h]

theorem remove_some (h : c.find name = some i) : c.remove name =
    { c with
      node := fun p => if (i :: c.cwd) <:+ p then none else c.node p
      free := c.free + ((c.entry i).map Node.clusters).getD 0
      printed := c.printed ++ [text "file or directory '", name.chars, text "' deleted.\n"] } := by
  unfold remove
  rw [h]

theorem read_none (h : c.find name = none) :
    c.read name = c.print [text "Error: File not found.\n"] := by
  unfold read
  rw [h]

theorem read_some (h : c.find name = some i) : c.read name =
    c.print ([text "\n"] ++ ((c.entry i).map Node.texts).getD [] ++ [text "\n\n"]) := by
  unfold read
  rw [h]

end

end Catalog

end FirstKernel
