import InfraPins.Proofs.Result
import InfraPins.Proofs.Scan.Images
import InfraPins.Proofs.Text.Lines
import InfraPins.Proofs.Version.Legible

namespace InfraPins.Scan

open Text Result

/-- Images that a scan of a text has given, all of them or those before some place: a scan that comes to
a tag that it cannot read has given the images before it. -/
def GivesImages (content : List Char) (path : String) (found : List Dependency) : Prop :=
  ∃ seen options, seen <+: findAll imageHere? [] content ∧
    seen.mapM (imageDependency? path) = .ok options ∧ found = options.filterMap id

/-- A text that assigns an image on the line of a dependency: its name, the mark with white space around
it and, between quotes, its source with its version. -/
def Assigns (content : List Char) (dependency : Dependency) : Prop :=
  ∃ before gap gap' behind, (∀ c ∈ gap, isBlank c = true) ∧ (∀ c ∈ gap', isBlank c = true) ∧
    content = before ++ ((⟨dependency.name.toList, dependency.source.toList,
      dependency.current.toList⟩ : ImageAssignment).text gap gap' ++ behind) ∧
    lineAfter before = dependency.line

/-- A line with one assignment, indented, of which the tag can be read. -/
structure AssignmentLine where
  indent : List Char
  assignment : ImageAssignment
  blank : ∀ c ∈ indent, isBlank c = true ∧ c ≠ '\n'
  shaped : assignment.Shaped
  unbroken : '\n' ∉ assignment.tag
  legible : Version.Legible assignment.tag

namespace AssignmentLine

def text (line : AssignmentLine) : List Char :=
  line.indent ++ line.assignment.text [' '] [' ']

/-- The image on a line with a number, if its tag is a version. -/
def dependency? (line : AssignmentLine) (path : String) (number : Nat) : Option Dependency :=
  match Version.isSemanticLike line.assignment.tag with
  | .ok true => some {
      name := String.ofList line.assignment.variableName
      source := String.ofList line.assignment.image
      current := String.ofList line.assignment.tag
      path
      line := number
      kind := .image }
  | _ => none

end AssignmentLine

variable {content passed ending : List Char} {path : String} {found : List Dependency}

private theorem eq_of_imageDependency? {place : Match ImageAssignment} {dependency : Dependency}
    (given : imageDependency? path place = .ok (some dependency)) :
    Version.isSemanticLike place.value.tag = .ok true ∧
      dependency = ⟨String.ofList place.value.variableName, String.ofList place.value.image,
        String.ofList place.value.tag, path, lineAfter place.before, .image⟩ := by
  obtain ⟨semantic, told, given⟩ := bind_eq_ok.mp given
  cases semantic with
  | false => cases given
  | true => exact ⟨told, (Option.some.inj (Except.ok.inj given)).symm⟩

theorem lineAfter_mono {front back : List Char} (behind : front <+: back) :
    lineAfter front ≤ lineAfter back :=
  Nat.succ_le_succ (behind.sublist.count_le '\n')

private theorem pairwise_line {seen : List (Match ImageAssignment)} {options : List (Option Dependency)}
    (ordered : seen.Pairwise fun first second => first.before <+: second.before)
    (given : List.Forall₂ (fun place option => imageDependency? path place = .ok option) seen options) :
    (options.filterMap id).Pairwise fun first second => first.line ≤ second.line := by
  induction given with
  | nil => exact .nil
  | @cons place option seen options here there ih =>
    obtain ⟨first, ordered⟩ := List.pairwise_cons.mp ordered
    cases option with
    | none => exact ih ordered
    | some dependency =>
      apply List.Pairwise.cons
      · intro later member
        obtain ⟨option, inside, rfl⟩ := List.mem_filterMap.mp member
        obtain ⟨place', member', given'⟩ := exists_of_mem_left there.flip inside
        obtain ⟨-, rfl⟩ := eq_of_imageDependency? here
        obtain ⟨-, rfl⟩ := eq_of_imageDependency? given'
        exact lineAfter_mono (first place' member')
      · exact ih ordered

theorem GivesImages.ordered (gives : GivesImages content path found) :
    found.Pairwise fun first second => first.line ≤ second.line := by
  obtain ⟨seen, options, part, given, rfl⟩ := gives
  exact pairwise_line ((pairwise_findAll [] content).sublist part.sublist) (mapM_eq_ok.mp given)

theorem GivesImages.stands (gives : GivesImages content path found) {dependency : Dependency}
    (member : dependency ∈ found) :
    dependency.kind = .image ∧ dependency.path = path ∧
      Version.isSemanticLike dependency.current.toList = .ok true ∧ Assigns content dependency := by
  obtain ⟨seen, options, part, given, rfl⟩ := gives
  obtain ⟨option, inside, rfl⟩ := List.mem_filterMap.mp member
  obtain ⟨place, here, given⟩ := mem_of_mapM_eq_ok given inside
  obtain ⟨semantic, rfl⟩ := eq_of_imageDependency? given
  obtain ⟨rest, behind, split, recognised⟩ :=
    place_of_mem_findAll (fun _ _ _ => suffix_of_imageHere?) (part.subset here)
  obtain ⟨-, gap, gap', blank, blank', whole⟩ := imageHere?_eq_some_iff.mp recognised
  refine ⟨rfl, rfl, by simpa using semantic, place.before, gap, gap', behind, blank, blank', ?_, rfl⟩
  have split : content = place.before ++ rest := split
  rw [split, whole]
  simp

/-- A scan that comes to an end has given all its images. -/
theorem givesImages_of_images (scanned : images content path = .ok found) :
    GivesImages content path found := by
  obtain ⟨options, given, same⟩ := bind_eq_ok.mp scanned
  exact ⟨_, options, List.prefix_rfl, given, (Except.ok.inj same).symm⟩

private theorem imageHere?_of_isBlank {c : Char} (blank : isBlank c = true) (rest : List Char) :
    imageHere? (c :: rest) = none := by
  apply Option.eq_none_iff_forall_ne_some.mpr
  rintro ⟨found, behind⟩ here
  obtain ⟨shaped, gap, gap', -, -, split⟩ := imageHere?_eq_some_iff.mp here
  obtain ⟨stem, some, named⟩ := shaped.suffixed
  obtain ⟨first, stem, rfl⟩ := List.exists_cons_of_ne_nil some
  have word : isWord first = true := shaped.word first (by simp [named])
  have same : c = first := by
    rw [ImageAssignment.text, named] at split
    exact (List.cons.inj split).1
  rw [same] at blank
  rw [isWord_of_isBlank blank] at word
  cases word

private theorem findAll_of_blank {lead : List Char} (passed : List Char)
    (blank : ∀ c ∈ lead, isBlank c = true) (rest : List Char) :
    findAll imageHere? passed (lead ++ rest) = findAll imageHere? (lead.reverse ++ passed) rest := by
  apply findAll_append
  intro inner within some
  obtain ⟨c, inner, rfl⟩ := List.exists_cons_of_ne_nil some
  exact imageHere?_of_isBlank (blank c (within.subset List.mem_cons_self)) (inner ++ rest)

namespace AssignmentLine

variable (line : AssignmentLine)

private theorem plain :
    '\n' ∉ line.assignment.text [' '] [' '] ∧ line.assignment.text [' '] [' '] ≠ [] := by
  have word : '\n' ∉ line.assignment.variableName := by
    intro member
    exact absurd (line.shaped.word '\n' member) (by decide)
  have image : '\n' ∉ line.assignment.image := by
    intro member
    exact absurd (line.shaped.named '\n' member) (by decide)
  constructor
  · simp [ImageAssignment.text, word, image, line.unbroken]
  · simp [ImageAssignment.text]

theorem notMem_text : '\n' ∉ line.text := by
  rw [text, List.mem_append]
  rintro (indent | assignment)
  · exact (line.blank '\n' indent).2 rfl
  · exact line.plain.1 assignment

private theorem findAll_text (rest : List Char) :
    findAll imageHere? passed (line.text ++ rest) =
      ⟨passed.reverse ++ line.indent, line.assignment⟩ ::
        findAll imageHere? (line.text.reverse ++ passed) rest := by
  have blank : ∀ c ∈ [' '], isBlank c = true := List.forall_mem_singleton.mpr rfl
  have here : imageHere? (line.assignment.text [' '] [' '] ++ rest) = some (line.assignment, rest) :=
    imageHere?_eq_some_iff.mpr ⟨line.shaped, [' '], [' '], blank, blank, rfl⟩
  rw [text, List.append_assoc, findAll_of_blank passed (fun c member => (line.blank c member).1),
    findAll_of_some _ here line.plain.2]
  simp

private theorem imageDependency?_eq (before : List Char) :
    imageDependency? path ⟨before, line.assignment⟩ =
      .ok (line.dependency? path (lineAfter before)) := by
  rw [imageDependency?, dependency?, line.legible.isSemanticLike_eq]
  cases (Version.version? line.assignment.tag).isSome <;> rfl

end AssignmentLine

private theorem images_step (line : AssignmentLine) {rest : List Char}
    {options : List (Option Dependency)}
    (onward : (findAll imageHere? (line.text.reverse ++ passed) rest).mapM (imageDependency? path) =
      .ok options) :
    (findAll imageHere? passed (line.text ++ rest)).mapM (imageDependency? path) =
      .ok (line.dependency? path (lineAfter passed.reverse) :: options) := by
  have start : lineAfter (passed.reverse ++ line.indent) = lineAfter passed.reverse := by
    have unbroken : line.indent.count '\n' = 0 :=
      List.count_eq_zero.mpr fun member => (line.blank '\n' member).2 rfl
    rw [lineAfter, List.count_append, unbroken]
    rfl
  rw [line.findAll_text, List.mapM_cons, line.imageDependency?_eq, start, onward]
  rfl

private theorem images_run (lines : List AssignmentLine) (blank : ∀ c ∈ ending, isBlank c = true)
    (passed : List Char) :
    (findAll imageHere? passed ((lines.map AssignmentLine.text).flatMap (['\n'] ++ ·) ++ ending)).mapM
        (imageDependency? path) =
      .ok ((lines.zipIdx (lineAfter passed.reverse + 1)).map fun placed =>
        placed.1.dependency? path placed.2) := by
  induction lines generalizing passed with
  | nil =>
    have nothing := findAll_of_blank passed blank []
    rw [List.append_nil, findAll_nil] at nothing
    simp only [List.map_nil, List.flatMap_nil, List.nil_append, nothing]
    rfl
  | cons line lines ih =>
    have number : lineAfter ('\n' :: passed).reverse = lineAfter passed.reverse + 1 := by
      simp [lineAfter]
    have number' : lineAfter (line.text.reverse ++ '\n' :: passed).reverse =
        lineAfter passed.reverse + 1 := by
      rw [← number, lineAfter, lineAfter, List.count_reverse, List.count_append, List.count_reverse,
        List.count_eq_zero.mpr line.notMem_text, List.count_reverse, Nat.zero_add]
    have onward := ih (line.text.reverse ++ '\n' :: passed)
    rw [number'] at onward
    have step := images_step line onward
    rw [number] at step
    rw [List.map_cons, List.flatMap_cons, List.append_assoc, List.append_assoc,
      findAll_of_blank passed (List.forall_mem_singleton.mpr rfl), List.zipIdx_cons, List.map_cons]
    exact step

private theorem images_lines (lines : List AssignmentLine)
    (blank : ∀ c ∈ ending, isBlank c = true) :
    images (join ['\n'] (lines.map AssignmentLine.text) ++ ending) path =
      .ok ((lines.zipIdx 1).filterMap fun placed => placed.1.dependency? path placed.2) := by
  have all : (findAll imageHere? [] (join ['\n'] (lines.map AssignmentLine.text) ++ ending)).mapM
      (imageDependency? path) =
        .ok ((lines.zipIdx 1).map fun placed => placed.1.dependency? path placed.2) := by
    cases lines with
    | nil =>
      have nothing := findAll_of_blank [] blank []
      rw [List.append_nil, findAll_nil] at nothing
      simp only [List.map_nil, join, List.nil_append, nothing]
      rfl
    | cons line lines =>
      have number : lineAfter (line.text.reverse ++ []).reverse = 1 := by
        rw [List.append_nil, List.reverse_reverse, lineAfter,
          List.count_eq_zero.mpr line.notMem_text]
      have onward := @images_run _ path lines blank (line.text.reverse ++ [])
      rw [number] at onward
      rw [List.map_cons, join_cons, List.append_assoc, List.zipIdx_cons, List.map_cons]
      exact images_step line onward
  rw [images, all]
  show Except.ok _ = Except.ok _
  rw [List.filterMap_map]
  rfl

/-- Scanning for images is sound and complete: whatever it gives stands in the text, on its line and in
order, and a file of assignments, one on each line, gives exactly those with a version for their tag. -/
theorem images_sound_and_complete (path : String) :
    (∀ content found, GivesImages content path found →
      (∀ dependency ∈ found, dependency.kind = .image ∧ dependency.path = path ∧
        Version.isSemanticLike dependency.current.toList = .ok true ∧ Assigns content dependency) ∧
      found.Pairwise fun first second => first.line ≤ second.line) ∧
    (∀ content found, images content path = .ok found → GivesImages content path found) ∧
    (∀ (lines : List AssignmentLine) (ending : List Char), (∀ c ∈ ending, isBlank c = true) →
      images (join ['\n'] (lines.map AssignmentLine.text) ++ ending) path =
        .ok ((lines.zipIdx 1).filterMap fun placed => placed.1.dependency? path placed.2)) := by
  refine ⟨?_, ?_, ?_⟩
  · intro content found gives
    exact ⟨fun dependency member => gives.stands member, gives.ordered⟩
  · intro content found scanned
    exact givesImages_of_images scanned
  · intro lines ending blank
    exact images_lines lines blank

private def versionLine : AssignmentLine where
  indent := ['\t']
  assignment := ⟨"app_image".toList, "nginx".toList, "1.2.3".toList⟩
  blank := List.forall_mem_singleton.mpr (by decide)
  shaped := ⟨List.all_eq_true.mp (by decide), ⟨"app".toList, by decide, rfl⟩,
    List.all_eq_true.mp (by decide), rfl, by decide, by decide⟩
  unbroken := by decide
  legible := by decide +kernel

/-- A line with the text of another assignment for its tag. -/
private def otherLine : AssignmentLine where
  indent := []
  assignment := ⟨"db_image".toList, "pg".toList, "x_image = y:2.0.0".toList⟩
  blank := nofun
  shaped := ⟨List.all_eq_true.mp (by decide), ⟨"db".toList, by decide, rfl⟩,
    List.all_eq_true.mp (by decide), rfl, by decide, by decide⟩
  unbroken := by decide
  legible := by decide +kernel

theorem images_sound_and_complete_sample :
    let content := ("\tapp_image = \"nginx:1.2.3\"\n" ++ "db_image = \"pg:x_image = y:2.0.0\"\n" ++
      "\tapp_image = \"nginx:1.2.3\"\n").toList
    let first : Dependency := ⟨"app_image", "nginx", "1.2.3", "env.hcl", 1, .image⟩
    images content "env.hcl" = .ok [first, { first with line := 3 }] ∧ Assigns content first := by
  intro content first
  obtain ⟨sound, ended, complete⟩ := images_sound_and_complete "env.hcl"
  have scanned : images content "env.hcl" = .ok [first, { first with line := 3 }] := by
    have lines : content =
        join ['\n'] ([versionLine, otherLine, versionLine].map AssignmentLine.text) ++ ['\n'] := by
      decide +kernel
    have given := complete [versionLine, otherLine, versionLine] ['\n'] (List.forall_mem_singleton.mpr rfl)
    rw [lines, given]
    rfl
  exact ⟨scanned, ((sound content _ (ended content _ scanned)).1 first List.mem_cons_self).2.2.2⟩

end InfraPins.Scan
