import Rocket.CamelNames

set_option autoImplicit false

namespace Rocket

structure InterfaceEntry where
  interfaceName : Text
  methodName : Text
  interfaceClassName : Text
deriving DecidableEq, Repr

def interfaceEntry (methodName : Text) : InterfaceEntry where
  interfaceName := toUnderline methodName
  methodName := methodName
  interfaceClassName := toCamel methodName ++ "Interface".toList

-- A file of the project and the class that its text defines.
structure SourceFile where
  path : Text
  className : Option Text
deriving DecidableEq, Repr

structure Project where
  files : List SourceFile
  skipped : List Text := []
deriving DecidableEq, Repr

def Project.paths (project : Project) : List Text := project.files.map SourceFile.path

def Project.generate (project : Project) (file : SourceFile) : Project :=
  if file.path ∈ project.paths then { project with skipped := project.skipped ++ [file.path] }
  else { project with files := project.files ++ [file] }

def interfaceFiles (each : InterfaceEntry) : List SourceFile :=
  [⟨"interface/".toList ++ each.interfaceName ++ ".h".toList, some each.interfaceClassName⟩,
    ⟨"interface/".toList ++ each.interfaceName ++ ".cpp".toList, none⟩,
    ⟨"test_client/test_".toList ++ each.interfaceName ++ "_client.cpp".toList, none⟩]

def generateInterfaces (project : Project) (interfaceList : List InterfaceEntry) : Project :=
  interfaceList.foldl (fun project each => (interfaceFiles each).foldl Project.generate project) project

-- The two files of the base class are there before the loop over the methods.
def baseProject : Project where
  files := [⟨"interface/interface.h".toList, some "Interface".toList⟩, ⟨"interface/interface.cpp".toList, none⟩]

def generatedProject (methods : List Text) : Project := generateInterfaces baseProject (methods.map interfaceEntry)

structure GeneratesApart (methods : List Text) : Prop where
  filesDiffer : methods.Pairwise fun one other => (interfaceEntry one).interfaceName ≠ (interfaceEntry other).interfaceName
  filesNamed : ∀ method ∈ methods, (interfaceEntry method).interfaceName ≠ []
  classesDiffer : methods.Pairwise fun one other =>
    (interfaceEntry one).interfaceClassName ≠ (interfaceEntry other).interfaceClassName
  nothingSkipped : (generatedProject methods).skipped = []
  noClassTwice : ((generatedProject methods).files.filterMap SourceFile.className).Nodup

structure NamesApart (methods : List Text) : Prop where
  different : methods.Pairwise fun one other => ¬ Collide one other
  notOneSmallLetter : ∀ c : Char, c.isLower = true → [c] ∉ methods
  notInterface : ∀ method ∈ methods, ¬ Collide method "Interface".toList

theorem interface_file_iff (name : Text) (identifier : IsIdentifier name) :
    toUnderline name = "interface".toList ↔ Collide name "Interface".toList := by
  have base : toUnderline "Interface".toList = "interface".toList := by rfl
  have baseIdentifier : IsIdentifier "Interface".toList := by simp [IsIdentifier]
  rw [← base]
  exact same_file_iff name _ identifier baseIdentifier

def interfaceEnds : List (Text × Text) :=
  [("interface/".toList, ".h".toList), ("interface/".toList, ".cpp".toList),
    ("test_client/test_".toList, "_client.cpp".toList)]

def interfacePaths (name : Text) : List Text := interfaceEnds.map fun ends => ends.1 ++ name ++ ends.2

theorem interface_paths (each : InterfaceEntry) :
    (interfaceFiles each).map SourceFile.path = interfacePaths each.interfaceName := rfl

-- The first character and the last tell the three files apart.
theorem interface_path_same (ends other : Text × Text) (member : ends ∈ interfaceEnds) (otherMember : other ∈ interfaceEnds)
    (name otherName : Text) (equal : ends.1 ++ name ++ ends.2 = other.1 ++ otherName ++ other.2) :
    ends = other ∧ name = otherName := by
  have present : ∀ ends ∈ interfaceEnds, ends.1 ≠ [] ∧ ends.2 ≠ [] := by decide
  have apart : ∀ ends ∈ interfaceEnds, ∀ other ∈ interfaceEnds,
      ends.1.head? = other.1.head? → ends.2.getLast? = other.2.getLast? → ends = other := by decide
  have heads := congrArg List.head? equal
  have lasts := congrArg List.getLast? equal
  rw [List.append_assoc, List.append_assoc, List.head?_append_of_ne_nil _ (present ends member).1,
    List.head?_append_of_ne_nil _ (present other otherMember).1] at heads
  rw [List.getLast?_append_of_ne_nil _ (present ends member).2,
    List.getLast?_append_of_ne_nil _ (present other otherMember).2] at lasts
  obtain rfl := apart ends member other otherMember heads lasts
  exact ⟨rfl, List.append_cancel_left (List.append_cancel_right equal)⟩

theorem interface_paths_nodup (name : Text) : (interfacePaths name).Nodup :=
  List.Nodup.map_on (fun ends member other otherMember equal => (interface_path_same ends other member otherMember name name equal).1)
    (by decide)

theorem interface_paths_disjoint_iff (name other : Text) :
    (interfacePaths name).Disjoint (interfacePaths other) ↔ name ≠ other := by
  constructor
  · rintro disjoint rfl
    exact disjoint (List.mem_map_of_mem List.mem_cons_self) (List.mem_map_of_mem List.mem_cons_self)
  · intro different path here there
    obtain ⟨ends, member, rfl⟩ := List.mem_map.mp here
    obtain ⟨others, otherMember, equal⟩ := List.mem_map.mp there
    exact different (interface_path_same others ends otherMember member other name equal).2.symm

theorem base_paths_free_iff (name : Text) :
    (∀ path ∈ interfacePaths name, path ∉ baseProject.paths) ↔ name ≠ "interface".toList := by
  constructor
  · rintro free rfl
    exact free _ List.mem_cons_self List.mem_cons_self
  · intro different path here there
    have base : path ∈ interfacePaths "interface".toList := List.mem_of_mem_take (i := 2) there
    exact (interface_paths_disjoint_iff name _).mpr different here base

theorem generated_paths (project : Project) (file : SourceFile) :
    Project.paths { project with files := project.files ++ [file] } = project.paths ++ [file.path] := List.map_append

theorem generate_files (project : Project) (files : List SourceFile) :
    (files.foldl Project.generate project).skipped = [] ↔
      project.skipped = [] ∧ (files.map SourceFile.path).Nodup ∧ ∀ file ∈ files, file.path ∉ project.paths := by
  induction files generalizing project with
  | nil => simp
  | cons file files ih =>
      rw [List.foldl_cons, ih, Project.generate]
      by_cases there : file.path ∈ project.paths
      · rw [if_pos there]
        simp [there]
      · rw [if_neg there, generated_paths, List.map_cons, List.nodup_cons, List.forall_mem_cons]
        constructor
        · rintro ⟨clean, nodup, free⟩
          refine ⟨clean, ⟨?_, nodup⟩, there, fun other member inside => free other member (List.mem_append_left _ inside)⟩
          intro again
          obtain ⟨other, member, same⟩ := List.mem_map.mp again
          exact free other member (List.mem_append_right _ (List.mem_singleton.mpr same))
        · rintro ⟨clean, ⟨once, nodup⟩, _, free⟩
          refine ⟨clean, nodup, fun other member inside => ?_⟩
          rcases List.mem_append.mp inside with earlier | last
          · exact free other member earlier
          · exact once (List.mem_map.mpr ⟨other, member, List.mem_singleton.mp last⟩)

theorem generate_all_files (project : Project) (files : List SourceFile)
    (clean : (files.foldl Project.generate project).skipped = []) :
    (files.foldl Project.generate project).files = project.files ++ files := by
  induction files generalizing project with
  | nil => exact (List.append_nil _).symm
  | cons file files ih =>
      have free := ((generate_files project (file :: files)).mp clean).2.2 file List.mem_cons_self
      rw [List.foldl_cons] at clean ⊢
      rw [ih _ clean, Project.generate, if_neg free, List.append_assoc]
      rfl

theorem generated_fold (methods : List Text) :
    generatedProject methods =
      (methods.flatMap fun method => interfaceFiles (interfaceEntry method)).foldl Project.generate baseProject := by
  rw [generatedProject, generateInterfaces, List.foldl_map, List.foldl_flatMap]

theorem nothing_skipped_iff (methods : List Text) :
    (generatedProject methods).skipped = [] ↔
      (methods.Pairwise fun one other => toUnderline one ≠ toUnderline other) ∧
        ∀ method ∈ methods, toUnderline method ≠ "interface".toList := by
  rw [generated_fold, generate_files, List.map_flatMap, List.nodup_flatMap]
  constructor
  · rintro ⟨_, ⟨_, disjoint⟩, free⟩
    refine ⟨disjoint.imp fun apart => (interface_paths_disjoint_iff _ _).mp apart, fun method member => ?_⟩
    refine (base_paths_free_iff _).mp fun path listed => ?_
    obtain ⟨file, of, rfl⟩ := List.mem_map.mp (interface_paths (interfaceEntry method) ▸ listed)
    exact free file (List.mem_flatMap.mpr ⟨method, member, of⟩)
  · rintro ⟨different, notBase⟩
    refine ⟨rfl, ⟨fun method _ => interface_paths_nodup _, ?_⟩, fun file member => ?_⟩
    · exact different.imp fun apart => (interface_paths_disjoint_iff _ _).mpr apart
    · obtain ⟨method, listed, of⟩ := List.mem_flatMap.mp member
      exact (base_paths_free_iff _).mpr (notBase method listed) file.path (List.mem_map_of_mem of)

theorem camel_nonempty (method : Text) (named : toUnderline method ≠ []) : toCamel method ≠ [] := by
  intro empty
  exact named (by rw [toUnderline, empty]; rfl)

theorem classes_nodup (methods : List Text) (clean : (generatedProject methods).skipped = [])
    (named : ∀ method ∈ methods, toUnderline method ≠ [])
    (different : methods.Pairwise fun one other => toCamel one ++ "Interface".toList ≠ toCamel other ++ "Interface".toList) :
    ((generatedProject methods).files.filterMap SourceFile.className).Nodup := by
  rw [generated_fold] at clean ⊢
  have classes : (methods.flatMap fun method => interfaceFiles (interfaceEntry method)).filterMap SourceFile.className =
      methods.map fun method => toCamel method ++ "Interface".toList := by
    rw [List.filterMap_flatMap, List.map_eq_flatMap]
    rfl
  rw [generate_all_files _ _ clean, List.filterMap_append, classes]
  refine List.nodup_cons.mpr ⟨fun base => ?_, List.pairwise_map.mpr different⟩
  obtain ⟨method, member, same⟩ := List.mem_map.mp base
  exact camel_nonempty method (named method member) (List.append_left_eq_self.mp same)

theorem generates_apart_names (methods : List Text) (identifiers : ∀ method ∈ methods, IsIdentifier method) :
    GeneratesApart methods ↔ NamesApart methods := by
  constructor
  · intro apart
    refine ⟨?_, fun c lower member => ?_, fun method member same => ?_⟩
    · refine apart.filesDiffer.imp_of_mem fun {one other} oneListed otherListed different same => different ?_
      exact (same_file_iff one other (identifiers one oneListed) (identifiers other otherListed)).mpr same
    · exact apart.filesNamed [c] member ((no_file_name_iff [c] (identifiers [c] member)).mpr ⟨c, lower, rfl⟩)
    · exact ((nothing_skipped_iff methods).mp apart.nothingSkipped).2 method member
        ((interface_file_iff method (identifiers method member)).mpr same)
  · intro apart
    have files : methods.Pairwise fun one other => toUnderline one ≠ toUnderline other := by
      refine apart.different.imp_of_mem fun {one other} oneListed otherListed different same => different ?_
      exact (same_file_iff one other (identifiers one oneListed) (identifiers other otherListed)).mp same
    have named : ∀ method ∈ methods, toUnderline method ≠ [] := by
      intro method member empty
      obtain ⟨c, lower, rfl⟩ := (no_file_name_iff method (identifiers method member)).mp empty
      exact apart.notOneSmallLetter c lower member
    have classes : methods.Pairwise fun one other =>
        toCamel one ++ "Interface".toList ≠ toCamel other ++ "Interface".toList := by
      refine files.imp fun {one other} different same => different ?_
      rw [toUnderline, toUnderline, List.append_cancel_right same]
    have clean := (nothing_skipped_iff methods).mpr
      ⟨files, fun method member same => apart.notInterface method member ((interface_file_iff method (identifiers method member)).mp same)⟩
    exact ⟨files, named, classes, clean, classes_nodup methods clean named classes⟩

theorem generates_apart_iff (methods : List Text) (identifiers : ∀ method ∈ methods, IsIdentifier method)
    (words : List Text) (present : words ≠ []) (areWords : ∀ word ∈ words, IsWord word) :
    (GeneratesApart methods ↔ NamesApart methods) ∧
      (toUnderline (joined words) = joined words ↔ 2 ≤ words.length) :=
  ⟨generates_apart_names methods identifiers, joined_again_iff words present areWords⟩

theorem order_methods_apart :
    GeneratesApart ["query_name".toList, "MakeOrder".toList] ∧
      toUnderline (joined ["make".toList, "order".toList]) = "make_order".toList := by
  have query : IsIdentifier "query_name".toList := by simp [IsIdentifier]
  have make : IsIdentifier "MakeOrder".toList := by simp [IsIdentifier]
  have identifiers : ∀ method ∈ ["query_name".toList, "MakeOrder".toList], IsIdentifier method := by
    simp only [List.forall_mem_cons, query, make, true_and]
    exact fun method member => by cases member
  have areWords : ∀ word ∈ ["make".toList, "order".toList], IsWord word := by simp [IsWord]
  obtain ⟨apart, again⟩ := generates_apart_iff _ identifiers _ (List.cons_ne_nil _ _) areWords
  refine ⟨apart.mpr ⟨?_, ?_, ?_⟩, again.mpr (by decide)⟩
  · rw [List.pairwise_pair, ← same_file_iff _ _ query make]
    decide
  · intro c _ member
    simp at member
  · intro method member
    rw [← interface_file_iff method (identifiers method member)]
    revert method
    decide

-- Two methods with the same words, two that differ in a small first letter,
-- the name of the base class, and names whose first letter is lost.
theorem interface_names_diverge :
    ¬ GeneratesApart ["get_name".toList, "GetName".toList] ∧ ¬ GeneratesApart ["getName".toList, "setName".toList] ∧
      ¬ GeneratesApart ["Interface".toList] ∧ ¬ GeneratesApart ["q".toList] ∧
      toUnderline (joined ["query".toList]) = "uery".toList := by
  have sameWords : toUnderline "get_name".toList = toUnderline "GetName".toList := by
    simp [toUnderline, toCamel, capitalize, underlineChar, List.splitOn_cons_eq_if_modifyHead]
  have sameEnd : toUnderline "getName".toList = toUnderline "setName".toList := by
    simp [toUnderline, toCamel, underlineChar]
  refine ⟨fun apart => ?_, fun apart => ?_, fun apart => ?_, fun apart => ?_, by rfl⟩
  · exact List.pairwise_pair.mp apart.filesDiffer sameWords
  · exact List.pairwise_pair.mp apart.filesDiffer sameEnd
  · exact absurd apart.nothingSkipped (by decide)
  · exact apart.filesNamed _ List.mem_cons_self (by rfl)

end Rocket
