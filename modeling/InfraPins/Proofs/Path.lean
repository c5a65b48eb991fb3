import InfraPins.Proofs.Machine
import InfraPins.Proofs.Text.Lines
import Mathlib.Data.List.Flatten
import Mathlib.Data.String.Basic

namespace InfraPins

open Text

namespace Text

variable {pieces others : List (List Char)}

/-- Each character takes at least one octet. -/
theorem length_le_utf8Len (text : List Char) : text.length ≤ String.utf8Len text := by
  induction text with
  | nil => rfl
  | cons c text ih =>
    have some := c.utf8Size_pos
    rw [String.utf8Len_cons, List.length_cons]
    omega

theorem join_eq_intercalate (separator : List Char) (pieces : List (List Char)) :
    join separator pieces = separator.intercalate pieces := by
  induction pieces with
  | nil => rfl
  | cons piece pieces ih =>
    cases pieces with
    | nil => simp [join]
    | cons next pieces => rw [join, ih, List.intercalate_cons_cons]; exact List.cons_ne_nil next pieces

theorem join_sublist (separator : List Char) (kept : pieces.Sublist others) :
    (join separator pieces).Sublist (join separator others) := by
  induction kept with
  | slnil => exact List.Sublist.refl _
  | @cons kept others piece _ ih =>
    refine ih.trans ?_
    cases others with
    | nil => exact List.nil_sublist _
    | cons next others => simp [join_cons]
  | @cons_cons kept others piece sublist _ =>
    rw [join_cons, join_cons]
    exact (sublist.flatMap _).append_left piece

end Text

namespace Path

variable {text : String}

theorem size_rootOf_le (text : List Char) : (rootOf text).utf8ByteSize ≤ 2 := by
  unfold rootOf
  split
  · decide
  · decide
  · decide

/-- No part of a path is longer than the text that writes it. -/
theorem size_part_le {part : String} (member : part ∈ (ofText text).parts) :
    part.utf8ByteSize ≤ text.utf8ByteSize := by
  obtain ⟨piece, kept, rfl⟩ := List.mem_map.mp member
  have single : [piece].Sublist (splitAt '/' text.toList) :=
    List.singleton_sublist.mpr (List.mem_of_mem_filter kept)
  have within := join_sublist ['/'] single
  rw [join_splitAt] at within
  rw [String.utf8ByteSize_ofList, ← String.utf8Len_toList text]
  exact String.utf8Len_le_of_sublist within

/-- The text of a path is not much longer than the text that it is read from. -/
theorem size_text_le (text : String) : (ofText text).text.utf8ByteSize ≤ text.utf8ByteSize + 2 := by
  have parts : ("/".intercalate (ofText text).parts).utf8ByteSize ≤ text.utf8ByteSize := by
    have within := join_sublist ['/']
      (List.filter_sublist (p := isPart) (l := splitAt '/' text.toList))
    rw [join_splitAt, join_eq_intercalate] at within
    rw [← String.utf8Len_toList, ← String.utf8Len_toList text, String.toList_intercalate, ofText,
      List.map_map]
    refine String.utf8Len_le_of_sublist ?_
    simpa [Function.comp_def] using within
  unfold Path.text
  split
  · have dot : ".".utf8ByteSize = 1 := by decide
    omega
  · rw [String.utf8ByteSize_append]
    have root := size_rootOf_le text.toList
    change ((rootOf text.toList).utf8ByteSize + _) ≤ _
    omega

/-- A text without slashes that is longer than a dot is the path of one name. -/
theorem ofText_eq_of_name (single : '/' ∉ text.toList) (long : 1 < text.utf8ByteSize) :
    ofText text = ⟨"", [text]⟩ := by
  have unrooted : text.toList.takeWhile (· == '/') = [] := by
    cases same : text.toList with
    | nil => rfl
    | cons c rest =>
      have different : c ≠ '/' := fun slash => single (by simp [same, slash])
      simp [different]
  have part : isPart text.toList = true := by
    have filled : text ≠ "" := by
      rintro rfl
      cases long
    have named : text.toList ≠ ['.'] := by
      intro dot
      rw [← String.utf8Len_toList, dot] at long
      exact absurd long (by decide)
    simp [isPart, filled, named]
  simp [ofText, rootOf, unrooted, splitAt_of_notMem single, part]

/-- A path that is short enough to be looked up, with all its names. -/
structure Fits (path : Path) : Prop where
  whole : path.text.utf8ByteSize < FileTree.maxPath
  each : ∀ part ∈ path.parts, part.utf8ByteSize ≤ FileTree.maxName

/-- A text of no more octets than a name may have is short enough. -/
theorem fits_of_size_le (short : text.utf8ByteSize ≤ FileTree.maxName) : (ofText text).Fits where
  whole := by
    have size := size_text_le text
    have names : FileTree.maxName = 255 := rfl
    have paths : FileTree.maxPath = 4096 := rfl
    omega
  each := fun _ member => (size_part_le member).trans short

/-- A path that does not begin with a tilde, so that no home is put into it. -/
def Untilded (path : Path) : Prop :=
  path.root = "" → ∀ first ∈ path.parts.head?, first.toList.head? ≠ some '~'

end Path

namespace FileTree

/-- A tree in which everything may be looked at, and every directory searched. -/
def Open (tree : FileTree) : Prop :=
  ∀ entry ∈ tree, ∀ refusal, entry.2 ≠ .closed refusal ∧ entry.2 ≠ .hidden refusal

theorem Open.look? {tree : FileTree} (isOpen : tree.Open) {place : List String} {entry : FileEntry}
    (found : tree.look? place = some entry) (refusal : Refusal) :
    entry ≠ .closed refusal ∧ entry ≠ .hidden refusal := by
  unfold FileTree.look? at found
  split at found
  · rename_i here looked
    obtain rfl := Option.some.inj found
    obtain ⟨_, _, rfl, _⟩ := List.lookup_eq_some_iff.mp looked
    exact isOpen _ (List.mem_append_right _ List.mem_cons_self) refusal
  · split at found
    · obtain rfl := Option.some.inj found
      exact ⟨nofun, nofun⟩
    · cases found

/-- In an open tree, a walk along names that are short enough fails only by leading nowhere. -/
theorem walk_isAbsence {tree : FileTree} (isOpen : tree.Open) {place names : List String}
    (short : ∀ name ∈ names, name.utf8ByteSize ≤ maxName) {fault : FileFault}
    (failed : tree.walk place names = .error fault) : Machine.isAbsence fault = true := by
  induction names generalizing place with
  | nil =>
    unfold walk at failed
    split at failed
    · rename_i refusal found
      exact absurd rfl (isOpen.look? found refusal).2
    · cases failed
    · cases failed
      rfl
  | cons name names ih =>
    obtain ⟨first, others⟩ := List.forall_mem_cons.mp short
    unfold walk at failed
    split at failed
    · cases failed
      rfl
    · cases failed
      rfl
    · cases failed
      rfl
    · rename_i refusal found
      exact absurd rfl (isOpen.look? found refusal).1
    · rename_i refusal found
      exact absurd rfl (isOpen.look? found refusal).2
    · by_cases back : name = ".."
      · rw [if_pos back] at failed
        exact ih others failed
      · rw [if_neg back, if_neg (Nat.not_lt.mpr first)] at failed
        exact ih others failed

end FileTree

namespace Machine

variable {machine : Machine} {path : Path} {text : String}

theorem expand_of_untilded (untilded : path.Untilded) : machine.expand path = .ok path := by
  unfold expand
  split
  · rfl
  · rename_i first rest opens
    split
    · rename_i user relative tilde
      have here := untilded (String.isEmpty_iff.mp relative) first (by simp [opens])
      exact absurd (by rw [tilde]; rfl) here
    · rfl

/-- Of a path that is short enough it can be told, in an open tree, whether it leads to a file. -/
theorem isFile_ne_error (fits : path.Fits) (isOpen : machine.files.Open) (fault : FileFault) :
    machine.isFile path ≠ .error fault := by
  intro untold
  obtain ⟨failed, known⟩ := isFile_eq_error_iff.mp untold
  have absent : isAbsence fault = true := by
    unfold find FileTree.find at failed
    split at failed
    · cases failed
      rfl
    · rw [if_neg (Nat.not_le.mpr fits.whole)] at failed
      exact FileTree.walk_isAbsence isOpen fits.each failed
  cases absent.symm.trans known

/-- A name of more octets than a name may have is too long to be looked up. -/
theorem find_eq_nameTooLong (clean : '\x00' ∉ text.toList) (long : FileTree.maxName < text.utf8ByteSize)
    (there : machine.files.look? machine.directory = some .directory) :
    machine.find ⟨"", [text]⟩ = .error .nameTooLong := by
  have named : text ≠ ".." := by
    rintro rfl
    exact absurd long (by decide)
  have written : (⟨"", [text]⟩ : Path).text = text := by simp [Path.text]
  unfold find FileTree.find
  rw [written, if_neg (by simpa using clean)]
  split
  · rfl
  · have relative : (if "".isEmpty then machine.directory else []) = machine.directory := rfl
    simp only [relative, FileTree.walk, there, if_neg named, if_pos long]

end Machine

end InfraPins
