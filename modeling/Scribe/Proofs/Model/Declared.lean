import Mathlib.Data.List.Nodup
import Scribe.Model.TypeDecl
import Scribe.Proofs.Name

/-!
The declarations of a forest and their names. A qualified name is the package and the names on the
way to a declaration, with dots between them. The declared names are those of all declarations, each
once, inner ones before those around them; where names are identifiers and siblings have different
ones, no two of them are the same, for the way to a declaration is read back from its name.
-/
namespace Scribe

namespace TypeDecl

variable {d : TypeDecl} {ds : List TypeDecl} {package : Option String}

theorem qualifiedNames_eq (package : Option String) (d : TypeDecl) :
    d.qualifiedNames package =
      declaredNames (some (qualify package d.name)) d.classes ++ [qualify package d.name] := by
  cases d with
  | classDecl d | interfaceDecl d | enumDecl d | annotationDecl d => cases d; rfl

theorem declaredNames_cons (package : Option String) (d : TypeDecl) (ds : List TypeDecl) :
    declaredNames package (d :: ds) =
      declaredNames (some (qualify package d.name)) d.classes
        ++ qualify package d.name :: declaredNames package ds := by
  rw [declaredNames, qualifiedNames_eq, List.append_assoc, List.singleton_append]

theorem sizeOf_classes_lt (d : TypeDecl) : sizeOf d.classes < sizeOf d := by
  cases d with
  | classDecl d | interfaceDecl d | enumDecl d | annotationDecl d =>
    cases d
    simp +arith [classes]

/-- A declaration of a forest, at any depth: the first root, one inside the first root, or one in
the trees after it. Equal declarations in two places are two occurrences. -/
inductive Occurrence : List TypeDecl → Type
  | root {d : TypeDecl} {ds : List TypeDecl} : Occurrence (d :: ds)
  | inside {d : TypeDecl} {ds : List TypeDecl} (o : Occurrence d.classes) : Occurrence (d :: ds)
  | later {d : TypeDecl} {ds : List TypeDecl} (o : Occurrence ds) : Occurrence (d :: ds)

namespace Occurrence

def decl {ds : List TypeDecl} : Occurrence ds → TypeDecl
  | @root d _ => d
  | inside o => o.decl
  | later o => o.decl

def path {ds : List TypeDecl} : Occurrence ds → List String
  | @root d _ => [d.name]
  | @inside d _ o => d.name :: o.path
  | later o => o.path

def qualifiedName (package : Option String) (o : Occurrence ds) : String :=
  ".".intercalate (package.toList ++ o.path)

/-- One declaration stands inside another, at any depth. -/
inductive Encloses : {ds : List TypeDecl} → Occurrence ds → Occurrence ds → Prop
  | root {d : TypeDecl} {ds : List TypeDecl} (o : Occurrence d.classes) :
    Encloses (root : Occurrence (d :: ds)) (inside o)
  | inside {d : TypeDecl} {ds : List TypeDecl} {a b : Occurrence d.classes} (h : Encloses a b) :
    Encloses (inside a : Occurrence (d :: ds)) (inside b)
  | later {d : TypeDecl} {ds : List TypeDecl} {a b : Occurrence ds} (h : Encloses a b) :
    Encloses (later a : Occurrence (d :: ds)) (later b)

/-- All declarations of a forest, each after those inside it. -/
def all : (ds : List TypeDecl) → List (Occurrence ds)
  | [] => []
  | d :: ds => (all d.classes).map inside ++ root :: (all ds).map later
termination_by ds => sizeOf ds
decreasing_by
  · have := d.sizeOf_classes_lt
    simp only [List.cons.sizeOf_spec]
    omega
  · simp only [List.cons.sizeOf_spec]
    omega

theorem mem_all (o : Occurrence ds) : o ∈ all ds := by
  induction o with
  | root => simp [all]
  | inside o ih => simp [all, ih]
  | later o ih => simp [all, ih]

/-- No declaration is listed twice, nor before one inside it. -/
theorem pairwise_all (ds : List TypeDecl) :
    (all ds).Pairwise fun a b => a ≠ b ∧ ¬ a.Encloses b := by
  induction ds using all.induct with
  | case1 =>
    rw [all]
    exact .nil
  | case2 d ds ihinside ihlater =>
    rw [all, List.pairwise_append, List.pairwise_cons, List.pairwise_map, List.pairwise_map]
    simp only [List.forall_mem_cons, List.forall_mem_map]
    refine ⟨ihinside.imp ?_, ⟨fun _ _ => ⟨nofun, nofun⟩, ihlater.imp ?_⟩,
      fun _ _ => ⟨⟨nofun, nofun⟩, fun _ _ => ⟨nofun, nofun⟩⟩⟩
    · rintro a b ⟨hne, hnot⟩
      refine ⟨fun heq => hne (inside.inj heq), fun h => ?_⟩
      cases h with
      | inside h => exact hnot h
    · rintro a b ⟨hne, hnot⟩
      refine ⟨fun heq => hne (later.inj heq), fun h => ?_⟩
      cases h with
      | later h => exact hnot h

theorem path_ne_nil (o : Occurrence ds) : o.path ≠ [] := by
  induction o with
  | root | inside => exact List.cons_ne_nil _ _
  | later o ih => exact ih

theorem qualifiedName_root (package : Option String) :
    (root : Occurrence (d :: ds)).qualifiedName package = qualify package d.name := by
  cases package with
  | none => exact String.intercalate_singleton
  | some package =>
    exact String.intercalate_cons_cons.trans (congrArg _ String.intercalate_singleton)

theorem qualifiedName_inside (package : Option String) (o : Occurrence d.classes) :
    (inside o : Occurrence (d :: ds)).qualifiedName package =
      o.qualifiedName (some (qualify package d.name)) := by
  cases package with
  | none => rfl
  | some package =>
    calc ".".intercalate (package :: d.name :: o.path)
      _ = package ++ "." ++ (d.name ++ "." ++ ".".intercalate o.path) := by
        rw [String.intercalate_cons_cons, String.intercalate_cons_of_ne_nil o.path_ne_nil]
      _ = package ++ "." ++ d.name ++ "." ++ ".".intercalate o.path := by
        simp only [String.append_assoc]
      _ = ".".intercalate ((package ++ "." ++ d.name) :: o.path) :=
        (String.intercalate_cons_of_ne_nil o.path_ne_nil).symm

end Occurrence

theorem declaredNames_eq_map (package : Option String) (ds : List TypeDecl) :
    declaredNames package ds = (Occurrence.all ds).map (·.qualifiedName package) := by
  induction ds using Occurrence.all.induct generalizing package with
  | case1 =>
    rw [Occurrence.all]
    rfl
  | case2 d ds ihinside ihlater =>
    rw [declaredNames_cons, ihinside, ihlater, Occurrence.all, List.map_append, List.map_cons,
      List.map_map, List.map_map, Occurrence.qualifiedName_root]
    congr 1
    exact List.map_congr_left fun o _ => (o.qualifiedName_inside package).symm

/-- All names of a forest are identifiers, and siblings have different ones. -/
structure WellNamed (ds : List TypeDecl) : Prop where
  identifiers : ∀ o : Occurrence ds, Name.isIdentifier o.decl.name
  roots : (ds.map name).Nodup
  nested : ∀ o : Occurrence ds, (o.decl.classes.map name).Nodup

theorem wellNamed_nil : WellNamed [] := ⟨nofun, List.nodup_nil, nofun⟩

theorem wellNamed_cons_iff : WellNamed (d :: ds) ↔
    Name.isIdentifier d.name ∧ d.name ∉ ds.map name ∧ WellNamed d.classes ∧ WellNamed ds := by
  constructor
  · intro h
    obtain ⟨hname, hroots⟩ := List.nodup_cons.1 h.roots
    exact ⟨h.identifiers .root, hname,
      ⟨fun o => h.identifiers (.inside o), h.nested .root, fun o => h.nested (.inside o)⟩,
      ⟨fun o => h.identifiers (.later o), hroots, fun o => h.nested (.later o)⟩⟩
  · rintro ⟨hidentifier, hname, hinside, hlater⟩
    refine ⟨fun o => ?_, List.nodup_cons.2 ⟨hname, hlater.roots⟩, fun o => ?_⟩
    · cases o with
      | root => exact hidentifier
      | inside o => exact hinside.identifiers o
      | later o => exact hlater.identifiers o
    · cases o with
      | root => exact hinside.roots
      | inside o => exact hinside.nested o
      | later o => exact hlater.nested o

namespace Occurrence

theorem isIdentifier_of_mem_path (h : WellNamed ds) (o : Occurrence ds) {n : String}
    (hn : n ∈ o.path) : Name.isIdentifier n := by
  induction o with
  | root => exact List.mem_singleton.1 hn ▸ (wellNamed_cons_iff.1 h).1
  | inside o ih =>
    obtain ⟨hidentifier, -, hinside, -⟩ := wellNamed_cons_iff.1 h
    rcases List.mem_cons.1 hn with rfl | hn
    · exact hidentifier
    · exact ih hinside hn
  | later o ih => exact ih (wellNamed_cons_iff.1 h).2.2.2 hn

theorem exists_path_eq (o : Occurrence ds) : ∃ n ∈ ds.map name, ∃ rest, o.path = n :: rest := by
  induction o with
  | root => exact ⟨_, List.mem_cons_self, _, rfl⟩
  | inside o => exact ⟨_, List.mem_cons_self, _, rfl⟩
  | later o ih =>
    obtain ⟨n, hn, heq⟩ := ih
    exact ⟨n, List.mem_cons_of_mem _ hn, heq⟩

theorem path_ne_cons {n : String} (h : n ∉ ds.map name) (o : Occurrence ds)
    (rest : List String) : o.path ≠ n :: rest := by
  obtain ⟨root, hroot, rest', hpath⟩ := o.exists_path_eq
  intro heq
  obtain rfl := (List.cons.inj (hpath.symm.trans heq)).1
  exact h hroot

/-- Where siblings have different names, a way leads to one declaration. -/
theorem path_injective (h : WellNamed ds) :
    Function.Injective (path : Occurrence ds → List String) := by
  intro a b hpath
  induction a with
  | root =>
    obtain ⟨-, hname, -, -⟩ := wellNamed_cons_iff.1 h
    cases b with
    | root => rfl
    | inside b => exact absurd (List.cons.inj hpath).2.symm b.path_ne_nil
    | later b => exact absurd hpath.symm (b.path_ne_cons hname [])
  | inside a ih =>
    obtain ⟨-, hname, hinside, -⟩ := wellNamed_cons_iff.1 h
    cases b with
    | root => exact absurd (List.cons.inj hpath).2 a.path_ne_nil
    | inside b => exact congrArg inside (ih hinside (List.cons.inj hpath).2)
    | later b => exact absurd hpath.symm (b.path_ne_cons hname a.path)
  | later a ih =>
    obtain ⟨-, hname, -, hlater⟩ := wellNamed_cons_iff.1 h
    cases b with
    | root => exact absurd hpath (a.path_ne_cons hname [])
    | inside b => exact absurd hpath (a.path_ne_cons hname b.path)
    | later b => exact congrArg later (ih hlater hpath)

/-- The way to a declaration is read back from its name. -/
theorem path_eq_of_qualifiedName_eq (h : WellNamed ds) {a b : Occurrence ds}
    (heq : a.qualifiedName package = b.qualifiedName package) : a.path = b.path := by
  have hways : ".".intercalate a.path = ".".intercalate b.path := by
    cases package with
    | none => exact heq
    | some package =>
      refine (String.append_right_inj (package ++ ".")).1 ?_
      rw [← String.intercalate_cons_of_ne_nil a.path_ne_nil,
        ← String.intercalate_cons_of_ne_nil b.path_ne_nil]
      exact heq
  rw [← Name.splitOn_dot_intercalate a.path_ne_nil fun _ => a.isIdentifier_of_mem_path h, hways,
    Name.splitOn_dot_intercalate b.path_ne_nil fun _ => b.isIdentifier_of_mem_path h]

theorem qualifiedName_injective (h : WellNamed ds) :
    Function.Injective (qualifiedName package : Occurrence ds → String) :=
  fun _ _ heq => path_injective h (path_eq_of_qualifiedName_eq h heq)

end Occurrence

/-- The declared names are those of all declarations of a forest, each listed once and after all
that are inside it, and no two of them are the same. -/
theorem declaredNames_complete (package : Option String) (ds : List TypeDecl) (h : WellNamed ds) :
    (declaredNames package ds).Nodup ∧ ∃ os : List (Occurrence ds),
      declaredNames package ds = os.map (·.qualifiedName package)
        ∧ os.Nodup ∧ (∀ o, o ∈ os)
        ∧ os.Pairwise fun a b => ¬ a.Encloses b := by
  have hpairwise := Occurrence.pairwise_all ds
  have hnodup : (Occurrence.all ds).Nodup := hpairwise.imp And.left
  refine ⟨?_, Occurrence.all ds, declaredNames_eq_map package ds, hnodup, Occurrence.mem_all,
    hpairwise.imp And.right⟩
  rw [declaredNames_eq_map]
  exact hnodup.map (Occurrence.qualifiedName_injective h)

def cabinet : List TypeDecl := [
  .classDecl
    { name := "Cabinet"
      classes := [
        .enumDecl { name := "Drawer" },
        .interfaceDecl
          { name := "Shelf"
            classes := [.annotationDecl { name := "Cabinet" }, .classDecl { name := "Drawer" }] }] },
  .interfaceDecl { name := "Shelf", classes := [.enumDecl { name := "Drawer" }] }]

theorem wellNamed_cabinet : WellNamed cabinet := by
  simp only [cabinet, wellNamed_cons_iff, wellNamed_nil, classes]
  decide +kernel

theorem declaredNames_complete_cabinet :
    WellNamed cabinet
      ∧ declaredNames (some "com.acme") cabinet =
        ["com.acme.Cabinet.Drawer", "com.acme.Cabinet.Shelf.Cabinet",
          "com.acme.Cabinet.Shelf.Drawer", "com.acme.Cabinet.Shelf", "com.acme.Cabinet",
          "com.acme.Shelf.Drawer", "com.acme.Shelf"]
      ∧ (declaredNames (some "com.acme") cabinet).Nodup
      ∧ ∃ os : List (Occurrence cabinet),
        declaredNames (some "com.acme") cabinet = os.map (·.qualifiedName (some "com.acme"))
          ∧ os.Nodup ∧ (∀ o, o ∈ os)
          ∧ os.Pairwise fun a b => ¬ a.Encloses b :=
  ⟨wellNamed_cabinet, by decide +kernel, declaredNames_complete _ _ wellNamed_cabinet⟩

example : declaredNames none [
    .classDecl { name := "A", classes := [.classDecl { name := "B" }] },
    .classDecl { name := "A.B" }] = ["A.B", "A", "A.B"] := by
  decide

end TypeDecl
end Scribe
