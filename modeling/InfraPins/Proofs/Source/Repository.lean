import InfraPins.Proofs.Hcl.Token
import InfraPins.Source
import Mathlib.Data.List.DropRight
import Mathlib.Data.List.Infix

/-! Names of repositories. A locator is written in layers around a path, whose parts stand between
single dividers. Behind the first divider of what is left a part goes on or the text ends: neither `git::`
nor a scheme is seen in a path. The name depends on the locator alone, and a version is no part of it. -/

namespace InfraPins.Source

open Text Hcl

/-- A character that parts a locator. -/
def isDivider (c : Char) : Bool :=
  c == '/' || c == ':'

/-- A part of a locator: a text without a divider and without the mark of a query. -/
structure Part where
  text : List Char
  filled : text ≠ []
  plain : ∀ c ∈ text, c ≠ '/' ∧ c ≠ ':' ∧ c ≠ '?'

/-- A part of a locator with the divider behind it. -/
structure Segment where
  part : Part
  divider : Char
  divides : divider = '/' ∨ divider = ':'

def Segment.text (segment : Segment) : List Char :=
  segment.part.text ++ [segment.divider]

/-- The scheme of a locator: a letter, and letters, digits, plus signs, dots and hyphens. -/
structure Scheme where
  first : Char
  others : List Char
  letter : first.isAlpha = true
  signs : ∀ c ∈ others, c.isAlphanum = true ∨ c = '+' ∨ c = '.' ∨ c = '-'

def Scheme.name (scheme : Scheme) : List Char :=
  scheme.first :: scheme.others

/-- What may stand behind the name of a repository: nothing, a slash, or a directory in it. -/
inductive Tail
  | nothing
  | slash
  | directory (path : List Char) (plain : '?' ∉ path)

def Tail.text : Tail → List Char
  | nothing => []
  | slash => ['/']
  | directory path _ => '/' :: '/' :: path

/-- A well-formed locator, layer by layer, with a query behind it. -/
structure Locator where
  forced : Bool
  scheme? : Option Scheme
  segments : List Segment
  name : Part
  suffixed : Bool
  bare : suffixed = false → ¬ gitSuffix <:+ name.text
  tail : Tail
  query? : Option (List Char)

namespace Locator

/-- The opening that has a locator read as that of a Git repository, where it has one. -/
def opening (l : Locator) : List Char :=
  if l.forced then "git::".toList else []

/-- The scheme with the text behind it, where there is one. -/
def protocol (l : Locator) : List Char :=
  match l.scheme? with
  | some scheme => scheme.name ++ "://".toList
  | none => []

def fullName (l : Locator) : List Char :=
  if l.suffixed then l.name.text ++ gitSuffix else l.name.text

def path (l : Locator) : List Char :=
  l.segments.flatMap Segment.text ++ l.fullName

def query (l : Locator) : List Char :=
  match l.query? with
  | some query => '?' :: query
  | none => []

def text (l : Locator) : List Char :=
  l.opening ++ (l.protocol ++ (l.path ++ l.tail.text)) ++ l.query

end Locator

variable {part rest text front back : List Char} {segments : List Segment}

theorem isSchemeChar_eq_true_iff {c : Char} :
    isSchemeChar c = true ↔ c.isAlphanum = true ∨ c = '+' ∨ c = '.' ∨ c = '-' := by
  simp [isSchemeChar, or_assoc]

theorem isSchemeChar_of_isAlpha {c : Char} (letter : c.isAlpha = true) : isSchemeChar c = true := by
  simp [isSchemeChar, Char.isAlphanum, letter]

theorem Scheme.isSchemeChar_of_mem (scheme : Scheme) {c : Char} (member : c ∈ scheme.name) :
    isSchemeChar c = true := by
  rcases List.mem_cons.mp member with rfl | member
  · exact isSchemeChar_of_isAlpha scheme.letter
  · exact isSchemeChar_eq_true_iff.mpr (scheme.signs c member)

/-- No sign of a scheme parts a locator or begins a query. -/
theorem plain_of_isSchemeChar {c : Char} (sign : isSchemeChar c = true) :
    c ≠ '/' ∧ c ≠ ':' ∧ c ≠ '?' := by
  refine ⟨?_, ?_, ?_⟩ <;> intro same <;> subst same <;> revert sign <;> decide

/-- The full name of a repository is a part, too. -/
def Locator.stem (l : Locator) : Part where
  text := l.fullName
  filled := by
    unfold Locator.fullName
    split
    · simp [l.name.filled]
    · exact l.name.filled
  plain := by
    have ending : ∀ c ∈ gitSuffix, c ≠ '/' ∧ c ≠ ':' ∧ c ≠ '?' := by simp [gitSuffix]
    intro c member
    unfold Locator.fullName at member
    split at member
    · rcases List.mem_append.mp member with member | member
      · exact l.name.plain c member
      · exact ending c member
    · exact l.name.plain c member

def behindPart (text : List Char) : List Char :=
  text.dropWhile fun c => !isDivider c

theorem behindPart_append (undivided : ∀ c ∈ part, isDivider c = false) :
    behindPart (part ++ rest) = behindPart rest :=
  List.dropWhile_append_of_pos fun c member => by simp [undivided c member]

theorem Part.undivided (part : Part) {c : Char} (member : c ∈ part.text) : isDivider c = false := by
  have plain := part.plain c member
  simp [isDivider, plain.1, plain.2.1]

theorem Scheme.undivided (scheme : Scheme) {c : Char} (member : c ∈ scheme.name) :
    isDivider c = false := by
  have plain := plain_of_isSchemeChar (scheme.isSchemeChar_of_mem member)
  simp [isDivider, plain.1, plain.2.1]

/-- A text with `git::` at its start has two colons behind its first part. -/
theorem after?_git_eq_none (other : ¬ "::".toList <+: behindPart text) :
    after? "git::".toList text = none := by
  by_contra seen
  obtain ⟨rest, found⟩ := Option.ne_none_iff_exists'.mp seen
  obtain rfl := after?_eq_some_iff.mp found
  exact other ⟨rest, rfl⟩

/-- A text with a scheme at its start has a colon and two slashes behind its first part. -/
theorem withoutScheme_eq_self (other : ¬ "://".toList <+: behindPart text) :
    withoutScheme text = text := by
  cases text with
  | nil => rfl
  | cons c others =>
    simp only [withoutScheme]
    split
    · rename_i letter
      split
      · rename_i rest dropped
        have undivided : ∀ d ∈ c :: others.takeWhile isSchemeChar, isDivider d = false := by
          intro d member
          have sign : isSchemeChar d = true := by
            rcases List.mem_cons.mp member with rfl | member
            · exact isSchemeChar_of_isAlpha letter
            · exact List.mem_takeWhile_imp member
          have plain := plain_of_isSchemeChar sign
          simp [isDivider, plain.1, plain.2.1]
        have whole : c :: others =
            (c :: others.takeWhile isSchemeChar) ++ ("://".toList ++ rest) := by
          rw [List.cons_append]
          congr 1
          calc others = others.takeWhile isSchemeChar ++ others.dropWhile isSchemeChar :=
                List.takeWhile_append_dropWhile.symm
            _ = others.takeWhile isSchemeChar ++ ("://".toList ++ rest) := by rw [dropped]; rfl
        rw [whole, behindPart_append undivided] at other
        exact absurd ⟨rest, rfl⟩ other
      · rfl
    · rfl

theorem withoutScheme_scheme (scheme : Scheme) (rest : List Char) :
    withoutScheme (scheme.name ++ ("://".toList ++ rest)) = rest := by
  have signs : ∀ c ∈ scheme.others, isSchemeChar c = true := fun c member =>
    scheme.isSchemeChar_of_mem (List.mem_cons_of_mem _ member)
  have dropped : (scheme.others ++ ("://".toList ++ rest)).dropWhile isSchemeChar =
      ':' :: '/' :: '/' :: rest := by
    rw [List.dropWhile_append_of_pos signs]
    rfl
  simp only [Scheme.name, List.cons_append, withoutScheme, scheme.letter, if_true, dropped]

/-- What may stand behind the first part of a path: nothing, a slash, or a colon with the next part. -/
inductive Continues : List Char → Prop
  | ended : Continues []
  | slash (rest : List Char) : Continues ('/' :: rest)
  | colon (c : Char) (rest : List Char) (undivided : isDivider c = false) : Continues (':' :: c :: rest)

theorem Continues.behindPart_eq (continues : Continues text) : behindPart text = text := by
  cases continues <;> rfl

theorem Continues.not_colons (continues : Continues text) : ¬ "::".toList <+: text := by
  rintro ⟨rest, rfl⟩
  cases continues with
  | colon _ _ undivided => cases undivided

theorem Continues.not_protocol (continues : Continues text) : ¬ "://".toList <+: text := by
  rintro ⟨rest, rfl⟩
  cases continues with
  | colon _ _ undivided => cases undivided

theorem Tail.continues (tail : Tail) : Continues tail.text := by
  cases tail with
  | nothing => exact .ended
  | slash => exact .slash _
  | directory path _ => exact .slash _

/-- A part, whatever stands behind it, begins with a character that divides nothing. -/
theorem Part.exists_cons_append (part : Part) (rest : List Char) :
    ∃ c others, part.text ++ rest = c :: others ∧ isDivider c = false := by
  obtain ⟨c, others, same⟩ := List.exists_cons_of_ne_nil part.filled
  exact ⟨c, others ++ rest, by rw [same, List.cons_append], part.undivided (same ▸ List.mem_cons_self)⟩

/-- The text of segments, a last part and what stands behind it. -/
def chain (segments : List Segment) (last : Part) (rest : List Char) : List Char :=
  segments.flatMap Segment.text ++ last.text ++ rest

theorem chain_cons (segment : Segment) (segments : List Segment) (last : Part) (rest : List Char) :
    chain (segment :: segments) last rest =
      segment.part.text ++ segment.divider :: chain segments last rest := by
  simp [chain, Segment.text]

theorem exists_cons_chain (segments : List Segment) (last : Part) (rest : List Char) :
    ∃ c others, chain segments last rest = c :: others ∧ isDivider c = false := by
  cases segments with
  | nil => exact last.exists_cons_append rest
  | cons segment segments =>
    rw [chain_cons]
    exact segment.part.exists_cons_append _

theorem continues_chain (segments : List Segment) (last : Part) (tail : Tail) :
    Continues (behindPart (chain segments last tail.text)) := by
  cases segments with
  | nil =>
    have behind : behindPart (chain [] last tail.text) = tail.text :=
      (behindPart_append fun _ => last.undivided).trans tail.continues.behindPart_eq
    rw [behind]
    exact tail.continues
  | cons segment segments =>
    have onward : Continues (segment.divider :: chain segments last tail.text) := by
      obtain ⟨c, others, same, undivided⟩ := exists_cons_chain segments last tail.text
      rcases segment.divides with slash | colon
      · rw [slash]
        exact .slash _
      · rw [colon, same]
        exact .colon c others undivided
    rw [chain_cons, behindPart_append fun _ => segment.part.undivided, onward.behindPart_eq]
    exact onward

theorem beforeDoubleSlash_append (free : '/' ∉ front) :
    beforeDoubleSlash (front ++ rest) = front ++ beforeDoubleSlash rest := by
  induction front with
  | nil => rfl
  | cons c front ih =>
    have different : c ≠ '/' := fun same => free (same ▸ List.mem_cons_self)
    rw [List.cons_append, beforeDoubleSlash, ih fun member => free (List.mem_cons_of_mem _ member)]
    · rfl
    · intro _ same
      exact absurd same different

theorem beforeDoubleSlash_slash {c : Char} (different : c ≠ '/') :
    beforeDoubleSlash ('/' :: c :: rest) = '/' :: beforeDoubleSlash (c :: rest) := by
  rw [beforeDoubleSlash]
  intro _ _ same
  exact different (List.cons.inj same).1

/-- What is left of a tail before its directory. -/
def Tail.kept : Tail → List Char
  | slash => ['/']
  | _ => []

theorem Tail.beforeDoubleSlash_text (tail : Tail) : beforeDoubleSlash tail.text = tail.kept := by
  cases tail <;> rfl

theorem Part.slash_notMem (part : Part) : '/' ∉ part.text :=
  fun member => (part.plain '/' member).1 rfl

theorem beforeDoubleSlash_chain (segments : List Segment) (last : Part) (tail : Tail) :
    beforeDoubleSlash (chain segments last tail.text) = chain segments last tail.kept := by
  induction segments with
  | nil =>
    rw [chain, chain, List.flatMap_nil, List.nil_append, beforeDoubleSlash_append last.slash_notMem,
      tail.beforeDoubleSlash_text]
  | cons segment segments ih =>
    obtain ⟨c, others, same, undivided⟩ := exists_cons_chain segments last tail.text
    rw [chain_cons, chain_cons, beforeDoubleSlash_append segment.part.slash_notMem]
    congr 1
    rw [← ih, same]
    rcases segment.divides with slash | colon
    · rw [slash]
      apply beforeDoubleSlash_slash
      rintro rfl
      cases undivided
    · rw [colon]
      have single : '/' ∉ [':'] := by decide
      exact beforeDoubleSlash_append single

/-- Slashes at the end of a chain are no part of the path. -/
theorem rdropWhile_chain (segments : List Segment) (last : Part) (tail : Tail) :
    (chain segments last tail.kept).rdropWhile (· == '/') = chain segments last [] := by
  have ends : (chain segments last []).rdropWhile (· == '/') = chain segments last [] := by
    refine List.rdropWhile_eq_self_iff.mpr fun filled => ?_
    have member : (chain segments last []).getLast filled ∈ last.text := by
      have same : chain segments last [] = segments.flatMap Segment.text ++ last.text := by simp [chain]
      simp only [same, List.getLast_append_of_ne_nil _ last.filled, List.getLast_mem]
    have plain := last.plain _ member
    simp [plain.1]
  cases tail with
  | slash =>
    have split : chain segments last Tail.slash.kept = chain segments last [] ++ ['/'] := by
      simp [chain, Tail.kept]
    rw [split, List.rdropWhile_concat_pos _ _ _ (by rfl), ends]
  | nothing => exact ends
  | directory path plain => exact ends

theorem lastSegment_append (undivided : ∀ c ∈ text, isDivider c = false) :
    lastSegment (front ++ text) = lastSegment front ++ text := by
  have accepted : ∀ c ∈ text.reverse, (!isDivider c) = true := by
    intro c member
    rw [undivided c (List.mem_reverse.mp member)]
    rfl
  unfold lastSegment
  rw [show (fun c => !(c == '/' || c == ':')) = fun c => !isDivider c from rfl, List.reverse_append,
    List.takeWhile_append_of_pos accepted, List.reverse_append, List.reverse_reverse]

theorem lastSegment_chain (segments : List Segment) (last : Part) :
    lastSegment (chain segments last []) = last.text := by
  have ends : lastSegment (segments.flatMap Segment.text) = [] := by
    rcases List.eq_nil_or_concat segments with rfl | ⟨front, segment, rfl⟩
    · rfl
    · have split : (front.concat segment).flatMap Segment.text =
          front.flatMap Segment.text ++ segment.part.text ++ [segment.divider] := by
        simp [Segment.text]
      rw [split]
      unfold lastSegment
      rcases segment.divides with slash | colon
      · simp [slash]
      · simp [colon]
  rw [chain, List.append_nil, lastSegment_append fun _ => last.undivided, ends, List.nil_append]

theorem withoutGitSuffix_append (name : List Char) : withoutGitSuffix (name ++ gitSuffix) = name := by
  have ends : gitSuffix.isSuffixOf (name ++ gitSuffix) = true := by simp
  simp only [withoutGitSuffix, ends, if_true, List.length_append, Nat.add_sub_cancel, List.take_left]

theorem Locator.withoutGitSuffix_fullName (l : Locator) :
    withoutGitSuffix l.fullName = l.name.text := by
  unfold Locator.fullName
  split
  · exact withoutGitSuffix_append _
  · rename_i unsuffixed
    have bare := l.bare (by simpa using unsuffixed)
    simp [withoutGitSuffix, bare]

theorem locator_append_query (query : List Char) : locator (front ++ '?' :: query) = locator front :=
  takeWhile_append_cons front query rfl

theorem locator_eq_self (free : '?' ∉ text) : locator text = text :=
  List.takeWhile_eq_self_iff.mpr fun c member => by
    have different : c ≠ '?' := fun same => free (same ▸ member)
    simp [different]

/-- The name of a repository is read off the locator alone. -/
theorem repositoryName_congr {source other : List Char} (same : locator source = locator other) :
    repositoryName source = repositoryName other := by
  simp only [repositoryName, same]

theorem locator_withoutVersion (source : List Char) : locator (withoutVersion source) = locator source := by
  unfold withoutVersion
  split
  · rfl
  · rename_i base query cut
    rw [eq_of_cutAt? cut, locator_append_query]
    split
    · rfl
    · exact locator_append_query _

theorem exists_refMark_of_afterLeadingRef? (found : afterLeadingRef? text = some rest) :
    ∃ pinned, text = refMark ++ pinned := by
  unfold afterLeadingRef? at found
  split at found
  · rename_i pinned same
    exact ⟨pinned, after?_eq_some_iff.mp same⟩
  · cases found

/-- A version that is put in behind `?ref=` leaves the locator before it alone. -/
theorem locator_replaceRefs (version text : List Char) :
    locator (replaceRefs version text) = locator text := by
  fun_induction replaceRefs version text with
  | case1 text rest found ih =>
    obtain ⟨pinned, rfl⟩ := exists_refMark_of_afterLeadingRef? found
    rfl
  | case2 found => rfl
  | case3 c rest found ih =>
    unfold locator at ih ⊢
    rw [List.takeWhile_cons, List.takeWhile_cons, ih]

theorem locator_append_of_mem (marked : '?' ∈ front) (back : List Char) :
    locator (front ++ back) = locator front := by
  obtain ⟨before, query, rfl⟩ := List.append_of_mem marked
  rw [List.append_assoc, List.cons_append, locator_append_query, locator_append_query]

theorem locator_withVersion (source version : List Char) :
    locator (withVersion source version) = locator source := by
  unfold withVersion
  split
  · exact locator_replaceRefs version source
  · split
    · rename_i marked
      rw [List.append_assoc]
      exact locator_append_of_mem (by simpa using marked) _
    · rw [List.append_assoc]
      exact locator_append_query _

namespace Locator

variable (l : Locator)

/-- A locator without its opening and its scheme. -/
def bareText : List Char :=
  chain l.segments l.stem l.tail.text

theorem text_eq : l.text = l.opening ++ (l.protocol ++ l.bareText) ++ l.query := by
  simp [text, bareText, chain, stem, path]

theorem question_notMem_bareText : '?' ∉ l.bareText := by
  intro member
  simp only [bareText, chain, List.mem_append, List.mem_flatMap, or_assoc] at member
  rcases member with ⟨segment, _, member⟩ | member | member
  · simp only [Segment.text, List.mem_append, List.mem_singleton] at member
    rcases member with member | same
    · exact (segment.part.plain '?' member).2.2 rfl
    · rcases segment.divides with divides | divides <;> rw [divides] at same <;> cases same
  · exact (l.stem.plain '?' member).2.2 rfl
  · cases tail : l.tail with
    | nothing => rw [tail] at member; cases member
    | slash => rw [tail] at member; simp [Tail.text] at member
    | directory path plain =>
      rw [tail] at member
      simp only [Tail.text, List.mem_cons, Char.reduceEq, false_or] at member
      exact plain member

theorem question_notMem_protocol : '?' ∉ l.protocol := by
  intro member
  unfold protocol at member
  cases same : l.scheme? with
  | none => rw [same] at member; cases member
  | some scheme =>
    rw [same] at member
    rcases List.mem_append.mp member with member | member
    · exact (plain_of_isSchemeChar (scheme.isSchemeChar_of_mem member)).2.2 rfl
    · revert member
      decide

/-- A locator ends where its query begins. -/
theorem locator_text : Source.locator l.text = l.opening ++ (l.protocol ++ l.bareText) := by
  have free : '?' ∉ l.opening ++ (l.protocol ++ l.bareText) := by
    have opening : '?' ∉ l.opening := by
      unfold opening
      split <;> decide
    simp [opening, l.question_notMem_protocol, l.question_notMem_bareText]
  rw [text_eq, query]
  cases l.query? with
  | none => rw [List.append_nil, locator_eq_self free]
  | some query => rw [locator_append_query, locator_eq_self free]

/-- The opening `git::` is seen exactly where there is one. -/
theorem after?_opening :
    (after? "git::".toList (l.opening ++ (l.protocol ++ l.bareText))).getD
      (l.opening ++ (l.protocol ++ l.bareText)) = l.protocol ++ l.bareText := by
  by_cases forced : l.forced = true
  · have seen := after?_eq_some_iff.mpr
      (show l.opening ++ (l.protocol ++ l.bareText) = "git::".toList ++ (l.protocol ++ l.bareText) by
        simp [opening, forced])
    rw [seen, Option.getD_some]
  · have unopened : l.opening = [] := by simp [opening, forced]
    rw [unopened, List.nil_append]
    have other : ¬ "::".toList <+: behindPart (l.protocol ++ l.bareText) := by
      unfold protocol
      cases l.scheme? with
      | none => exact (continues_chain l.segments l.stem l.tail).not_colons
      | some scheme =>
        dsimp only
        rw [List.append_assoc, behindPart_append fun _ => scheme.undivided]
        rintro ⟨rest, same⟩
        cases (List.cons.inj (List.cons.inj same).2).1
    rw [after?_git_eq_none other, Option.getD_none]

/-- A scheme is seen exactly where there is one. -/
theorem withoutScheme_protocol : withoutScheme (l.protocol ++ l.bareText) = l.bareText := by
  unfold protocol
  cases l.scheme? with
  | none => exact withoutScheme_eq_self (continues_chain l.segments l.stem l.tail).not_protocol
  | some scheme =>
    dsimp only
    rw [List.append_assoc]
    exact withoutScheme_scheme scheme l.bareText

/-- The layers of a locator are taken off one after the other, down to the name. -/
theorem repositoryName_text : repositoryName l.text = l.name.text := by
  have path : ((beforeDoubleSlash l.bareText).reverse.dropWhile (· == '/')).reverse =
      chain l.segments l.stem [] := by
    rw [bareText, beforeDoubleSlash_chain]
    exact rdropWhile_chain l.segments l.stem l.tail
  unfold repositoryName
  rw [l.locator_text, l.after?_opening, l.withoutScheme_protocol]
  dsimp only
  rw [path, lastSegment_chain]
  exact l.withoutGitSuffix_fullName

end Locator

/-- The name of a repository is found in every well-formed locator, through all of its layers. In any
text at all it stays what it is when the version is taken out, and when another one is put in. -/
theorem repositoryName_recovered :
    (∀ l : Locator, repositoryName l.text = l.name.text) ∧
      ∀ source version : List Char,
        repositoryName (withoutVersion source) = repositoryName source ∧
          repositoryName (withVersion source version) = repositoryName source := by
  refine ⟨fun l => l.repositoryName_text, fun source version => ⟨?_, ?_⟩⟩
  · exact repositoryName_congr (locator_withoutVersion source)
  · exact repositoryName_congr (locator_withVersion source version)

/-- A locator may have all of the layers at once. -/
example : ∃ l : Locator,
    l.text = "git::ssh://git@gitlab.com:2222/acme/vpc.git//modules/subnet?ref=v1".toList ∧
      l.name.text = "vpc".toList :=
  ⟨{ forced := true
     scheme? := some ⟨'s', "sh".toList, by decide, by simp⟩
     segments := [
       ⟨⟨"git@gitlab.com".toList, by simp, by simp⟩, ':', by simp⟩,
       ⟨⟨"2222".toList, by simp, by simp⟩, '/', by simp⟩,
       ⟨⟨"acme".toList, by simp, by simp⟩, '/', by simp⟩]
     name := ⟨"vpc".toList, by simp, by simp⟩
     suffixed := true
     bare := by simp
     tail := .directory "modules/subnet".toList (by simp)
     query? := some "ref=v1".toList }, by decide, rfl⟩

end InfraPins.Source
