import ScriptDelta.Proofs.Path.Components
import ScriptDelta.Proofs.Plan.Naming
import ScriptDelta.Proofs.Plan.Outcomes
import ScriptDelta.Proofs.Run.Account

/-! # Which arguments make a plan

Arguments make a plan if their directories differ, every pattern can be read, every text for a pair
names one, and no tag comes twice (`Arguments.Valid`). Otherwise they are refused for the first
fault, where the directories are looked at first, then the patterns, the pairs and the tags, each in
order (`Arguments.FirstFault`). Nothing depends on which texts are patterns, so the reading of
patterns is left open (`Plan.ofArgumentsWith`).
-/

namespace ScriptDelta

namespace Arguments

section

variable (compile : String → Except Glob.Fault Glob) (arguments : Arguments)

/-- The text can be read as a pattern. -/
def Compiles (text : String) : Prop :=
  ∃ glob, compile text = .ok glob

/-- The text names the pair, with its files in the two directories. -/
abbrev NamesPair (text : String) (pair : FilePair) : Prop :=
  FilePair.Names arguments.oldDir arguments.newDir text pair

/-- The pair of a file in the old directory and one in the new directory. -/
def pairOf (old new tag : String) : FilePair :=
  ⟨arguments.oldDir.join ⟨old⟩, arguments.newDir.join ⟨new⟩, tag⟩

/-- The six scripts in both directories. -/
def scripts : List FilePair :=
  [arguments.pairOf "rpg_core.js" "rmmz_core.js" "core",
    arguments.pairOf "rpg_managers.js" "rmmz_managers.js" "managers",
    arguments.pairOf "rpg_objects.js" "rmmz_objects.js" "objects",
    arguments.pairOf "rpg_scenes.js" "rmmz_scenes.js" "scenes",
    arguments.pairOf "rpg_sprites.js" "rmmz_sprites.js" "sprites",
    arguments.pairOf "rpg_windows.js" "rmmz_windows.js" "windows"]

/-- The arguments ask for the pairs: for the six scripts, unless there are texts for pairs; then for
those that the texts name, in order. -/
def AsksPairs (pairs : List FilePair) : Prop :=
  if arguments.pairs = [] then pairs = arguments.scripts
  else List.Forall₂ arguments.NamesPair arguments.pairs pairs

/-- The arguments make a plan. -/
structure Valid : Prop where
  /-- The directories are different as paths. -/
  directories : ¬ arguments.oldDir.Same arguments.newDir
  patterns : ∀ text ∈ arguments.ignore, Compiles compile text
  pairs : ∀ text ∈ arguments.pairs, ∃ pair, arguments.NamesPair text pair
  /-- No two of the texts name pairs with one tag. -/
  tags : ∀ pairs, List.Forall₂ arguments.NamesPair arguments.pairs pairs →
    (pairs.map FilePair.tag).Nodup

/-- The plan is what the arguments ask for. -/
structure Asks (plan : Plan) : Prop where
  outputDir : plan.outputDir = arguments.outputDir
  pairs : arguments.AsksPairs plan.pairs
  /-- The patterns, in order. -/
  ignore : List.Forall₂ (fun text glob => compile text = .ok glob) arguments.ignore plan.ignore
  detail : plan.detail = ⟨arguments.maxListed, arguments.bodyDiff⟩
  dryRun : plan.dryRun = arguments.dryRun

/-- The fault that the arguments are refused for. Of each kind it is the first, and there is none of
the kinds before. -/
inductive FirstFault : Plan.Fault → Prop
  | sameDirectory : arguments.oldDir.Same arguments.newDir → FirstFault .sameDirectory
  | pattern {text : String} {fault : Glob.Fault} :
      ¬ arguments.oldDir.Same arguments.newDir →
      PassBefore (Compiles compile) arguments.ignore text → compile text = .error fault →
      FirstFault (.pattern text fault)
  | pair {text : String} {fault : FilePair.Fault} :
      ¬ arguments.oldDir.Same arguments.newDir →
      (∀ text ∈ arguments.ignore, Compiles compile text) →
      PassBefore (fun earlier => ∃ pair, arguments.NamesPair earlier pair) arguments.pairs text →
      FilePair.Malformed text fault → FirstFault (.pair text fault)
  | duplicateTag {pairs : List FilePair} {tag : String} :
      ¬ arguments.oldDir.Same arguments.newDir →
      (∀ text ∈ arguments.ignore, Compiles compile text) →
      List.Forall₂ arguments.NamesPair arguments.pairs pairs →
      FirstAgain (pairs.map FilePair.tag) tag → FirstFault (.duplicateTag tag)

end

section asked

variable {arguments : Arguments} {pairs : List FilePair}

theorem eq_of_forall₂_namesPair {texts : List String} {others : List FilePair}
    (named : List.Forall₂ arguments.NamesPair texts pairs)
    (otherNamed : List.Forall₂ arguments.NamesPair texts others) : pairs = others := by
  have read := mapM_eq_ok_iff.mpr (named.imp fun _ _ => FilePair.parse_eq_ok_iff.mpr)
  have otherRead := mapM_eq_ok_iff.mpr (otherNamed.imp fun _ _ => FilePair.parse_eq_ok_iff.mpr)
  exact Except.ok.inj (read.symm.trans otherRead)

theorem AsksPairs.named (asked : arguments.AsksPairs pairs) :
    ∀ text ∈ arguments.pairs, ∃ pair, arguments.NamesPair text pair := by
  rw [AsksPairs] at asked
  split at asked
  next none => simp [none]
  next => exact exists_forall₂_iff.mp ⟨pairs, asked⟩

theorem exists_asksPairs
    (named : ∀ text ∈ arguments.pairs, ∃ pair, arguments.NamesPair text pair) :
    ∃ pairs, arguments.AsksPairs pairs := by
  simp only [AsksPairs]
  split
  · exact ⟨_, rfl⟩
  · exact exists_forall₂_iff.mpr named

theorem nodup_tags_scripts (arguments : Arguments) :
    (arguments.scripts.map FilePair.tag).Nodup := by
  simp [scripts, pairOf]

/-- The tags of the six scripts are different, so it is the texts that matter. -/
theorem AsksPairs.nodup_tags_iff (asked : arguments.AsksPairs pairs) :
    (pairs.map FilePair.tag).Nodup ↔
      ∀ pairs, List.Forall₂ arguments.NamesPair arguments.pairs pairs →
        (pairs.map FilePair.tag).Nodup := by
  rw [AsksPairs] at asked
  split at asked
  next none =>
    rw [none, asked]
    refine iff_of_true arguments.nodup_tags_scripts fun others named => ?_
    rw [List.forall₂_nil_left_iff.mp named]
    exact .nil
  next =>
    constructor
    · intro distinct others named
      rwa [← eq_of_forall₂_namesPair asked named]
    · exact fun distinct => distinct pairs asked

/-- Pairs with a tag that comes again are asked for only by texts. -/
theorem asksPairs_iff_of_firstAgain {tag : String}
    (again : FirstAgain (pairs.map FilePair.tag) tag) :
    arguments.AsksPairs pairs ↔ List.Forall₂ arguments.NamesPair arguments.pairs pairs := by
  rw [AsksPairs]
  split
  next none =>
    refine iff_of_false ?_ ?_
    · rintro rfl
      exact again.not_nodup arguments.nodup_tags_scripts
    · rw [none, List.forall₂_nil_left_iff]
      rintro rfl
      exact again.not_nodup .nil
  next => rfl

end asked

end Arguments

namespace Plan

/-- The arguments name two directories. -/
def checkDirectories (arguments : Arguments) : Except Fault Unit :=
  if arguments.oldDir.components = arguments.newDir.components then .error .sameDirectory
  else .ok ()

/-- The patterns of the arguments. -/
def patterns? (compile : String → Except Glob.Fault Glob) (arguments : Arguments) :
    Except Fault (List Glob) :=
  arguments.ignore.mapM fun text => (compile text).mapError (.pattern text)

/-- No tag comes twice. -/
def checkTags (pairs : List FilePair) : Except Fault Unit :=
  match firstRepeated? [] (pairs.map FilePair.tag) with
  | some tag => .error (.duplicateTag tag)
  | none => .ok ()

/-- The plan that the arguments make, with any reading of the patterns. -/
def ofArgumentsWith (compile : String → Except Glob.Fault Glob) (arguments : Arguments) :
    Except Fault Plan := do
  checkDirectories arguments
  let ignore ← patterns? compile arguments
  let pairs ← pairs? arguments
  checkTags pairs
  return ⟨arguments.outputDir, pairs, ignore, ⟨arguments.maxListed, arguments.bodyDiff⟩,
    arguments.dryRun⟩

theorem ofArguments_eq (arguments : Arguments) :
    ofArguments arguments = ofArgumentsWith Glob.parse arguments := by
  rw [ofArguments, ofArgumentsWith, checkDirectories]
  split
  · rfl
  · refine bind_congr fun ignore => bind_congr fun pairs => ?_
    rw [checkTags]
    cases firstRepeated? [] (pairs.map FilePair.tag) <;> rfl

section checks

variable {compile : String → Except Glob.Fault Glob} {arguments : Arguments} {fault : Fault}

theorem checkDirectories_eq_ok_iff {done : Unit} :
    checkDirectories arguments = .ok done ↔ ¬ arguments.oldDir.Same arguments.newDir := by
  rw [checkDirectories, ← Path.components_eq_iff]
  split <;> simp_all

theorem checkDirectories_eq_error_iff :
    checkDirectories arguments = .error fault ↔
      arguments.oldDir.Same arguments.newDir ∧ fault = .sameDirectory := by
  rw [checkDirectories, ← Path.components_eq_iff]
  split <;> simp_all [eq_comm]

theorem patterns?_eq_ok_iff {ignore : List Glob} :
    patterns? compile arguments = .ok ignore ↔
      List.Forall₂ (fun text glob => compile text = .ok glob) arguments.ignore ignore := by
  simp only [patterns?, mapM_eq_ok_iff, mapError_eq_ok_iff]

theorem patterns?_eq_error_iff :
    patterns? compile arguments = .error fault ↔
      ∃ text, PassBefore (Arguments.Compiles compile) arguments.ignore text ∧
        ∃ cause, compile text = .error cause ∧ .pattern text cause = fault := by
  simp only [patterns?, mapM_eq_error_iff, mapError_eq_ok_iff, mapError_eq_error_iff]
  rfl

theorem defaultPairs_eq (arguments : Arguments) :
    FilePair.defaultPairs arguments.oldDir arguments.newDir = arguments.scripts :=
  rfl

theorem pairs?_eq_ok_iff {pairs : List FilePair} :
    pairs? arguments = .ok pairs ↔ arguments.AsksPairs pairs := by
  simp only [pairs?, Arguments.AsksPairs, List.isEmpty_iff, defaultPairs_eq]
  split
  · simp [eq_comm]
  · simp only [mapM_eq_ok_iff, mapError_eq_ok_iff, FilePair.parse_eq_ok_iff]

theorem pairs?_eq_error_iff :
    pairs? arguments = .error fault ↔
      ∃ text, PassBefore (fun earlier => ∃ pair, arguments.NamesPair earlier pair)
          arguments.pairs text ∧
        ∃ cause, FilePair.Malformed text cause ∧ .pair text cause = fault := by
  simp only [pairs?, List.isEmpty_iff]
  split
  next none => simp [none, PassBefore]
  · simp only [mapM_eq_error_iff, mapError_eq_ok_iff, mapError_eq_error_iff,
      FilePair.parse_eq_ok_iff, FilePair.parse_eq_error_iff]

/-- The tags seen before count as a part of the list, if they are different. -/
theorem firstRepeated?_eq_some_iff {seen tags : List String} {tag : String}
    (distinct : seen.Nodup) :
    firstRepeated? seen tags = some tag ↔ FirstAgain (seen.reverse ++ tags) tag := by
  induction tags generalizing seen with
  | nil =>
    have none : ¬ FirstAgain seen.reverse tag := fun again =>
      again.not_nodup (List.nodup_reverse.mpr distinct)
    simpa [firstRepeated?] using none
  | cons first tags ih =>
    rw [firstRepeated?]
    by_cases known : first ∈ seen
    · have again : FirstAgain (seen.reverse ++ first :: tags) first :=
        ⟨seen.reverse, tags, rfl, List.nodup_reverse.mpr distinct, List.mem_reverse.mpr known⟩
      rw [if_pos (List.contains_iff_mem.mpr known), Option.some_inj]
      constructor
      · rintro rfl
        exact again
      · exact again.unique
    · rw [if_neg (fun contained => known (List.contains_iff_mem.mp contained)),
        ih (List.nodup_cons.mpr ⟨known, distinct⟩), List.reverse_cons, List.append_assoc,
        List.singleton_append]

theorem checkTags_eq_ok_iff {pairs : List FilePair} {done : Unit} :
    checkTags pairs = .ok done ↔ (pairs.map FilePair.tag).Nodup := by
  have distinct : firstRepeated? [] (pairs.map FilePair.tag) = none ↔
      (pairs.map FilePair.tag).Nodup := by
    simp [firstRepeated?_eq_none_iff]
  rw [← distinct, checkTags]
  cases firstRepeated? [] (pairs.map FilePair.tag) <;> simp

theorem checkTags_eq_error_iff {pairs : List FilePair} :
    checkTags pairs = .error fault ↔
      ∃ tag, FirstAgain (pairs.map FilePair.tag) tag ∧ .duplicateTag tag = fault := by
  have fails : checkTags pairs = .error fault ↔
      ∃ tag, firstRepeated? [] (pairs.map FilePair.tag) = some tag ∧ .duplicateTag tag = fault := by
    rw [checkTags]
    cases firstRepeated? [] (pairs.map FilePair.tag) <;> simp
  simp only [fails, firstRepeated?_eq_some_iff .nil, List.reverse_nil, List.nil_append]

theorem ofArgumentsWith_eq_ok_iff {plan : Plan} :
    ofArgumentsWith compile arguments = .ok plan ↔
      arguments.Valid compile ∧ arguments.Asks compile plan := by
  simp only [ofArgumentsWith, bind_eq_ok_iff, checkDirectories_eq_ok_iff, patterns?_eq_ok_iff,
    pairs?_eq_ok_iff, checkTags_eq_ok_iff]
  constructor
  · rintro ⟨-, differ, ignore, compiled, pairs, asked, -, distinct, made⟩
    obtain rfl := Except.ok.inj made
    exact ⟨⟨differ, exists_forall₂_iff.mp ⟨ignore, compiled⟩, asked.named,
      asked.nodup_tags_iff.mp distinct⟩, rfl, asked, compiled, rfl, rfl⟩
  · obtain ⟨outputDir, pairs, ignore, detail, dryRun⟩ := plan
    rintro ⟨valid, ⟨rfl, asked, compiled, rfl, rfl⟩⟩
    exact ⟨(), valid.directories, ignore, compiled, pairs, asked, (),
      asked.nodup_tags_iff.mpr valid.tags, rfl⟩

theorem ofArgumentsWith_eq_error_iff :
    ofArgumentsWith compile arguments = .error fault ↔ arguments.FirstFault compile fault := by
  simp only [ofArgumentsWith, bind_eq_error_iff, checkDirectories_eq_ok_iff,
    checkDirectories_eq_error_iff, patterns?_eq_ok_iff, patterns?_eq_error_iff, pairs?_eq_ok_iff,
    pairs?_eq_error_iff, checkTags_eq_ok_iff, checkTags_eq_error_iff]
  constructor
  · rintro (⟨same, rfl⟩ | ⟨-, differ, ⟨text, pass, cause, failed, rfl⟩ | ⟨ignore, compiled,
      ⟨text, pass, cause, malformed, rfl⟩ | ⟨pairs, asked, ⟨tag, again, rfl⟩ | ⟨-, -, made⟩⟩⟩⟩)
    · exact .sameDirectory same
    · exact .pattern differ pass failed
    · exact .pair differ (exists_forall₂_iff.mp ⟨ignore, compiled⟩) pass malformed
    · exact .duplicateTag differ (exists_forall₂_iff.mp ⟨ignore, compiled⟩)
        ((Arguments.asksPairs_iff_of_firstAgain again).mp asked) again
    · contradiction
  · intro first
    cases first with
    | sameDirectory same => exact .inl ⟨same, rfl⟩
    | @pattern text cause differ pass failed =>
      exact .inr ⟨(), differ, .inl ⟨text, pass, cause, failed, rfl⟩⟩
    | @pair text cause differ compiled pass malformed =>
      obtain ⟨ignore, compiled⟩ := exists_forall₂_iff.mpr compiled
      exact .inr ⟨(), differ, .inr ⟨ignore, compiled, .inl ⟨text, pass, cause, malformed, rfl⟩⟩⟩
    | @duplicateTag pairs tag differ compiled named again =>
      obtain ⟨ignore, compiled⟩ := exists_forall₂_iff.mpr compiled
      have asked := (Arguments.asksPairs_iff_of_firstAgain again).mpr named
      exact .inr ⟨(), differ, .inr ⟨ignore, compiled, .inr ⟨pairs, asked, .inl ⟨tag, again, rfl⟩⟩⟩⟩

/-- Valid arguments make a plan. -/
theorem exists_plan_iff :
    (∃ plan, ofArgumentsWith compile arguments = .ok plan) ↔ arguments.Valid compile := by
  simp only [ofArgumentsWith_eq_ok_iff]
  constructor
  · rintro ⟨plan, valid, -⟩
    exact valid
  · intro valid
    obtain ⟨ignore, compiled⟩ := exists_forall₂_iff.mpr valid.patterns
    obtain ⟨pairs, asked⟩ := Arguments.exists_asksPairs valid.pairs
    exact ⟨⟨arguments.outputDir, pairs, ignore, ⟨arguments.maxListed, arguments.bodyDiff⟩,
      arguments.dryRun⟩, valid, rfl, asked, compiled, rfl, rfl⟩

end checks

end Plan

/-- Arguments make a plan exactly if they are valid, and then the plan is what they ask for.
Otherwise they are refused for their first fault. This is so whatever texts can be read as patterns
of keys, and in particular with the patterns that are read. -/
theorem plan_or_first_fault (arguments : Arguments) :
    (∀ compile,
      ((∃ plan, Plan.ofArgumentsWith compile arguments = .ok plan) ↔ arguments.Valid compile) ∧
      (∀ plan, Plan.ofArgumentsWith compile arguments = .ok plan → arguments.Asks compile plan) ∧
      ∀ fault, Plan.ofArgumentsWith compile arguments = .error fault ↔
        arguments.FirstFault compile fault) ∧
    Plan.ofArguments arguments = Plan.ofArgumentsWith Glob.parse arguments := by
  constructor
  · intro compile
    refine ⟨Plan.exists_plan_iff, ?_, ?_⟩
    · intro plan made
      exact (Plan.ofArgumentsWith_eq_ok_iff.mp made).2
    · intro fault
      exact Plan.ofArgumentsWith_eq_error_iff
  · exact Plan.ofArguments_eq arguments

end ScriptDelta
