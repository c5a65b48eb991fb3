import InfraPins.Proofs.Patch.Edit

namespace InfraPins.Patch

open Text Scan Source Repin

/-- A module of which the name holds no `ref=` and the source is an address. -/
structure Addressed (module : ModuleSource) : Prop where
  named : '=' ∉ module.name
  sourced : ∃ address : Address, module.source = address.text

/-- A file whose modules are blocks with addresses. -/
structure Tidy (content : String) : Prop where
  blocks : ModulesAreBlocks content
  addressed : ∃ found, modules content = .ok found ∧ ∀ module ∈ found, Addressed module

/-- A pin before and after the upgrade of a source from one version to another: all of it stays, or
it has that source and goes from the one version to the other. -/
structure Upgrades (locator old new : String) (first second : Pin) : Prop where
  name : second.name = first.name
  source : second.source = first.source
  current : second.current = first.current ∨
    first.source = locator ∧ first.current = old ∧ second.current = new

private theorem plain_of_mem_address (address : Address) :
    ∀ c ∈ address.text, isPlainChar c = true := by
  intro c member
  apply isPlainChar_of_isReferenceChar
  rw [Address.text_eq] at member
  rcases List.mem_append.mp member with member | member
  · exact isReferenceChar_of_isPinChar (by simp [isPinChar, address.named c member])
  · rcases List.mem_cons.mp member with rfl | member
    · decide
    · rcases address.of_mem_query member with parameter | pinned | rfl
      · simp only [isParameterChar, Bool.or_eq_true, or_assoc] at parameter
        simp only [isReferenceChar, isPinChar, isNameChar, Bool.or_eq_true, or_assoc]
        tauto
      · exact isReferenceChar_of_isPinChar (isPinChar_of_isVersionChar pinned)
      · decide

private theorem pin?_of_address {name : List Char} (address : Address) :
    (⟨name, address.text⟩ : ModuleSource).pin? =
      some ⟨String.ofList name, String.ofList address.bare, String.ofList address.version⟩ := by
  have filled : address.version.isEmpty = false := by simpa using address.versioned
  simp [ModuleSource.pin?, address.version_text, address.withoutVersion_text, address.isGit_text,
    filled]

/-- A module before and after an edit of a source. -/
structure Renews (source old new : List Char) (first second : ModuleSource) : Prop where
  name : second.name = first.name
  source : second.source = first.source ∨ ∃ address again : Address, first.source = address.text ∧
    second.source = again.text ∧ address.bare = source ∧ again.bare = source ∧
    address.version = old ∧ again.version = new

private theorem renews_of_alike {content content' source old new : List Char} {repin : Repin}
    {first second : ModuleSource} (edits : Edits repin content content' source old new)
    (pinned : ∀ c ∈ new, isVersionChar c = true) (addressed : Addressed first)
    (alike : AlikeModule repin.ended first second) : Renews source old new first second := by
  obtain ⟨address, whole⟩ := addressed.sourced
  have plain : ∀ c ∈ first.source, isPlainChar c = true := whole ▸ plain_of_mem_address address
  obtain ⟨name, repinned⟩ := alike.repinned addressed.named plain
  refine ⟨name, repinned.imp_right ?_⟩
  rintro ⟨front, closing, inside, closes, here, there⟩
  have ends : ∀ c ∈ closing.head?, isVersionChar c = false := by
    intro c member
    rcases mem_head?_of_closing closes member with inside | rfl
    · exact edits.ends c inside
    · decide
  have touched := edits.touches address front closing inside closes (whole ▸ here)
  obtain ⟨version, _, again⟩ := address.renew_text repin.mark_cases (whole ▸ here) edits.filled ends
    (edits.new_eq ▸ pinned) repin.new_nonempty
  have renewed : second.source = (address.renew repin.new (edits.new_eq ▸ pinned)
      repin.new_nonempty).text := there.trans again.symm
  exact ⟨address, _, whole, renewed, touched, touched, version ▸ edits.old_eq, edits.new_eq⟩

/-- A tidy file before and after an edit. -/
theorem Tidy.renew {content content' : String} {source old new : List Char} {repin : Repin}
    (tidy : Tidy content) (edits : Edits repin content.toList content'.toList source old new)
    (pinned : ∀ c ∈ new, isVersionChar c = true) (apart : Apart repin) :
    Tidy content' ∧ ∃ found found', modules content = .ok found ∧ modules content' = .ok found' ∧
      (∀ module ∈ found, Addressed module) ∧ List.Forall₂ (Renews source old new) found found' := by
  obtain ⟨found, read, addressed⟩ := tidy.addressed
  obtain ⟨first, found', read', after, alike⟩ :=
    modules_alike tidy.blocks edits.before_eq edits.after_eq apart
  obtain rfl := Except.ok.inj (read.symm.trans read')
  have renews : List.Forall₂ (Renews source old new) found found' :=
    ((List.forall₂_and_left _ _).mpr ⟨addressed, alike⟩).imp fun _ _ both =>
      renews_of_alike edits pinned both.1 both.2
  have blocks : ModulesAreBlocks content' := @ModulesAreBlocks.repinned repin.ended _ _ tidy.blocks
    (by rw [edits.before_eq, text_ended]; rfl) (by rw [edits.after_eq, text_ended]; rfl)
  refine ⟨⟨blocks, found', after, fun module member => ?_⟩, found, found', read, after, addressed,
    renews⟩
  obtain ⟨earlier, inside, here⟩ := Result.exists_of_mem_left renews.flip member
  obtain ⟨named, sourced⟩ := addressed earlier inside
  refine ⟨here.name ▸ named, ?_⟩
  rcases here.source with same | ⟨_, again, _, text, _⟩
  · exact same ▸ sourced
  · exact ⟨again, text⟩

/-- After an edit, every module of a tidy file has its source between quotes in the text. -/
theorem Tidy.quoted {content content' : String} {source old new : List Char} {repin : Repin}
    (tidy : Tidy content') (edits : Edits repin content.toList content'.toList source old new)
    (apart : Apart repin) {found : List ModuleSource} (read : modules content' = .ok found) :
    ∀ module ∈ found, inQuotes module.source <:+: content'.toList := by
  -- The edit is undone, so that the modules at hand are those before it.
  obtain ⟨first, _, read', _, alike⟩ := @modules_alike repin.swap content' content tidy.blocks
    edits.after_eq edits.before_eq apart.swap
  obtain rfl := Except.ok.inj (read.symm.trans read')
  intro module member
  obtain ⟨again, same, addressed⟩ := tidy.addressed
  obtain rfl := Except.ok.inj (read.symm.trans same)
  obtain ⟨address, whole⟩ := (addressed module member).sourced
  obtain ⟨_, _, here⟩ := Result.exists_of_mem_left alike member
  obtain ⟨stands, _⟩ := here.source (whole ▸ plain_of_mem_address address)
  have ended : repin.swap.ended.text repin.swap.ended.old = content'.toList ++ ['\n'] := by
    rw [text_ended, edits.after_eq]
    rfl
  rw [ended] at stands
  obtain ⟨before, after, split⟩ := stands
  -- The line end is no quote, so that it is not taken.
  rcases List.eq_nil_or_concat after with rfl | ⟨after, c, rfl⟩
  · rw [List.append_nil, inQuotes, ← List.cons_append, ← List.append_assoc] at split
    exact absurd (List.append_inj' split rfl).2 (by decide)
  · refine ⟨before, after, ?_⟩
    rw [List.concat_eq_append, ← List.append_assoc] at split
    exact (List.append_inj' split rfl).1

theorem report_of_modules {content path : String} {found : List ModuleSource}
    (read : modules content = .ok found) :
    ∃ scanned, report content path .terraform = .ok scanned ∧
      scanned.dependencies.map Dependency.pin = found.filterMap ModuleSource.pin? := by
  have pins := report_pins content path
  rw [read] at pins
  cases scanned : report content path .terraform with
  | error failure => rw [scanned] at pins; cases pins
  | ok scanned' =>
    rw [scanned] at pins
    exact ⟨scanned', rfl, Except.ok.inj pins⟩

theorem pins_renew {found found' : List ModuleSource} {source old new : List Char}
    (addressed : ∀ module ∈ found, Addressed module)
    (renews : List.Forall₂ (Renews source old new) found found') :
    List.Forall₂ (Upgrades (String.ofList source) (String.ofList old) (String.ofList new))
      (found.filterMap ModuleSource.pin?) (found'.filterMap ModuleSource.pin?) := by
  induction renews with
  | nil => exact .nil
  | @cons first second found found' here _ ih =>
    have rest := ih fun module member => addressed module (List.mem_cons_of_mem _ member)
    obtain ⟨address, whole⟩ := (addressed first List.mem_cons_self).sourced
    obtain ⟨name, text⟩ := first
    obtain ⟨name', text'⟩ := second
    obtain ⟨rfl, change⟩ := here
    dsimp only at whole change
    subst whole
    rw [List.filterMap_cons_some (pin?_of_address address)]
    rcases change with rfl | ⟨address', again, same, rfl, rfl, bare, rfl, rfl⟩
    · rw [List.filterMap_cons_some (pin?_of_address address)]
      exact .cons ⟨rfl, rfl, .inl rfl⟩ rest
    · rw [List.filterMap_cons_some (pin?_of_address again)]
      have source : address.bare = address'.bare := by
        rw [← address.withoutVersion_text, same, address'.withoutVersion_text]
      have version : address.version = address'.version := by
        rw [← address.version_text, same, address'.version_text]
      refine .cons ⟨rfl, ?_, .inr ⟨?_, ?_, rfl⟩⟩ rest <;> simp [source, version, bare]

/-- The address behind a dependency of a tidy file. -/
theorem address_of_mem {found : List ModuleSource} {scanned : Report} {dependency : Dependency}
    (addressed : ∀ module ∈ found, Addressed module)
    (pins : scanned.dependencies.map Dependency.pin = found.filterMap ModuleSource.pin?)
    (member : dependency ∈ scanned.dependencies) :
    ∃ address : Address, (∃ module ∈ found, module.source = address.text) ∧
      dependency.source.toList = address.bare ∧ dependency.current.toList = address.version := by
  have inside : dependency.pin ∈ found.filterMap ModuleSource.pin? := by
    rw [← pins]
    exact List.mem_map_of_mem member
  obtain ⟨module, here, pinned⟩ := List.mem_filterMap.mp inside
  obtain ⟨address, whole⟩ := (addressed module here).sourced
  rw [show module = ⟨module.name, address.text⟩ from whole ▸ rfl, pin?_of_address] at pinned
  obtain ⟨-, source, current⟩ := Pin.mk.inj (Option.some.inj pinned)
  exact ⟨address, ⟨module, here, whole⟩, by simp [← source], by simp [← current]⟩

/-- An address at one version, with a parameter in front of its `ref` or behind it. -/
def sampleAddress (locator : List Char) (before after : List (List Char))
    (named : "git::https://".toList.isPrefixOf locator && locator.all isNameChar &&
      (before ++ after).all fun p => isKeptParameter p && p.all isParameterChar) : Address where
  locator
  before
  version := "v1".toList
  after
  secure := by
    simp only [Bool.and_eq_true] at named
    exact List.isPrefixOf_iff_prefix.mp named.1.1
  named := by
    simp only [Bool.and_eq_true] at named
    exact List.all_eq_true.mp named.1.2
  parameters := by
    simp only [Bool.and_eq_true] at named
    intro p member
    have both := List.all_eq_true.mp named.2 p member
    rw [Bool.and_eq_true] at both
    exact ⟨both.1, List.all_eq_true.mp both.2⟩
  pinned := List.all_eq_true.mp (by decide)
  versioned := by decide

/-- Two modules, of which the second has a parameter behind its `ref`. -/
def twoModules : String :=
  "module \"x\" \x7b source = \"git::https://h/x?ref=v1\" \x7d\n"
    ++ "module \"a\" \x7b source = \"git::https://h/a?ref=v1&depth=1\" \x7d\n"

theorem twoModules_tidy : Tidy twoModules where
  blocks := by decide +kernel
  addressed := by
    refine ⟨[⟨"x".toList, "git::https://h/x?ref=v1".toList⟩,
      ⟨"a".toList, "git::https://h/a?ref=v1&depth=1".toList⟩], by decide +kernel, ?_⟩
    simp only [List.forall_mem_cons, List.not_mem_nil, false_implies, implies_true, and_true]
    exact ⟨⟨by decide, sampleAddress "git::https://h/x".toList [] [] (by decide), by decide⟩,
      ⟨by decide, sampleAddress "git::https://h/a".toList [] ["depth=1".toList] (by decide),
        by decide⟩⟩

end InfraPins.Patch
