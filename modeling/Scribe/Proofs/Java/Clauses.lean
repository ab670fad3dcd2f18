import Scribe.Proofs.Java.Varargs
import Scribe.Proofs.Render.Yields

/-!
Clauses: a keyword or an angle bracket, and types or arguments after it. A clause dangles where it
is printed without any of them. Of all transforms only those with a list of type parameters look at
what has been rendered before they print a clause; the others look at what there is to render, and
below the depth limit that comes to nothing.
-/
namespace Scribe.Java

open Script

/-- A part of a signature that lists types or arguments. -/
structure Clause where
  lead : String
  slot : Slot
  items : List Item
  separator : String := ", "
  close : String := ""
  /-- It is printed if an item has been rendered, not if there is one to render. -/
  guarded : Bool := false

namespace Clause

variable (k : Clause) (texts : List String)

/-- Whether the clause is printed when its items have given some texts. -/
def Printed : Prop := if k.guarded then texts ≠ [] else k.items ≠ []

instance : Decidable (k.Printed texts) := by unfold Printed; infer_instance

def write : String :=
  if k.Printed texts then k.lead ++ k.separator.intercalate texts ++ k.close else ""

/-- The clause is printed and no type or argument stands in it. -/
def Dangles : Prop := k.Printed texts ∧ texts = []

theorem dangles_nil : k.Dangles [] ↔ k.items ≠ [] ∧ k.guarded = false := by
  cases hguarded : k.guarded <;> simp [Dangles, Printed, hguarded]

theorem not_dangles {k : Clause} {texts : List String} (h : texts.length = k.items.length) :
    ¬ k.Dangles texts := by
  rintro ⟨hprinted, rfl⟩
  rw [List.length_nil, eq_comm, List.length_eq_zero_iff] at h
  cases hguarded : k.guarded <;> simp [Printed, hguarded, h] at hprinted

def ofGenerics (gs : List Generic) : Clause :=
  { lead := "<", slot := .generics, items := gs.map .generic, close := ">", guarded := true }

def ofTypes (lead : String) (slot : Slot) (ts : List TypeRef) : Clause :=
  { lead, slot, items := ts.map .type }

end Clause

def clauses : Item → List Clause
  | .classDecl d =>
    [.ofGenerics d.generics, .ofTypes " extends " .supertype d.supertype.toList,
      .ofTypes " implements " .interfaces d.interfaces]
  | .interfaceDecl d => [.ofGenerics d.generics, .ofTypes " extends " .interfaces d.interfaces]
  | .enumDecl d => [.ofTypes " implements " .interfaces d.interfaces]
  | .method m => [.ofGenerics m.generics, .ofTypes " throws " .exceptions m.exceptions]
  | .constructor c => [.ofTypes " throws " .exceptions c.exceptions]
  | .type t =>
    [{ lead := "<", slot := .arguments, items := t.arguments.map .ofArgument, close := ">" }]
  | .generic g =>
    [{ lead := " " ++ g.kind.keyword ++ " ", slot := .bounds, items := g.bounds.map .type
       separator := " & " }]
  | _ => []

/-- A clause as it came out. -/
structure Outcome where
  clause : Clause
  /-- What its items have given. -/
  texts : List String
  /-- What comes after it, up to the next clause. -/
  rest : String

namespace Outcome

def text (o : Outcome) : String := o.clause.write o.texts ++ o.rest

def Inside (c : Children) (n : Node) (o : Outcome) : Prop :=
  ∃ d, o.texts = ((Script.texts (n.parts o.clause.slot o.clause.items)).run c d).1

end Outcome

/-- A text in which clauses follow on one another. -/
def Clausal (c : Children) (n : Node) (ks : List Clause) (text : String) : Prop :=
  ∃ (start : String) (os : List Outcome), os.map (·.clause) = ks ∧ (∀ o ∈ os, o.Inside c n)
    ∧ text = start ++ String.join (os.map (·.text))

section

variable {c : Children} {n : Node} {k : Clause} {ks : List Clause}

def Written (c : Children) (n : Node) (k : Clause) (text : String) : Prop :=
  ∃ texts, Outcome.Inside c n ⟨k, texts, ""⟩ ∧ text = k.write texts

theorem written_of_nil (h : k.items = []) : Written c n k "" := by
  refine ⟨[], ⟨{}, ?_⟩, ?_⟩
  · rw [h]
    rfl
  · simp [Clause.write, Clause.Printed, h]

theorem written_of_ne_nil {ts : List String} {text : String}
    (hts : Outcome.Inside c n ⟨k, ts, ""⟩) (hitems : k.items ≠ []) (hguarded : k.guarded = false)
    (htext : text = k.lead ++ k.separator.intercalate ts ++ k.close) : Written c n k text :=
  ⟨ts, hts, by simp [Clause.write, Clause.Printed, hitems, hguarded, htext]⟩

theorem yields_inside (k : Clause) : Yields c (fun _ => True)
    (fun ts => Outcome.Inside c n ⟨k, ts, ""⟩) (texts (n.parts k.slot k.items)) :=
  fun d _ => ⟨⟨d, rfl⟩, trivial⟩

theorem yields_commaList_inside (k : Clause) : Yields c (fun _ => True)
    (fun text => ∃ ts, Outcome.Inside c n ⟨k, ts, ""⟩ ∧ text = ", ".intercalate ts)
    (commaList (n.parts k.slot k.items)) :=
  yields_bind (yields_inside k) fun ts hts => yields_pure ⟨ts, hts, rfl⟩

theorem yields_genericList_written (gs : List Generic) :
    Yields c (fun _ => True) (Written c n (.ofGenerics gs)) (genericList n gs) := by
  refine yields_bind (yields_inside (.ofGenerics gs)) fun ts hts => ?_
  cases ts with
  | nil => exact yields_pure ⟨[], hts, rfl⟩
  | cons t ts => exact yields_pure ⟨t :: ts, hts, rfl⟩

theorem yields_typeClause_written (lead : String) (slot : Slot) (ts : List TypeRef) :
    Yields c (fun _ => True) (Written c n (.ofTypes lead slot ts)) (typeClause n slot lead ts) := by
  cases ts with
  | nil => exact yields_pure (written_of_nil rfl)
  | cons t ts =>
    refine yields_bind (yields_commaList_inside (.ofTypes lead slot (t :: ts))) ?_
    rintro _ ⟨texts, hinside, rfl⟩
    exact yields_pure (written_of_ne_nil hinside nofun rfl String.append_empty.symm)

theorem yields_throwsClause_written (ts : List TypeRef) :
    Yields c (fun _ => True) (Written c n (.ofTypes " throws " .exceptions ts))
      (throwsClause n ts) :=
  yields_typeClause_written " throws " .exceptions ts

/-! Whole texts, from left to right. -/

theorem clausal_nil (text : String) : Clausal c n [] text :=
  ⟨text, [], rfl, nofun, String.append_empty.symm⟩

namespace Clausal

variable {text : String} (h : Clausal c n ks text)

include h

theorem prepend (lead : String) : Clausal c n ks (lead ++ text) := by
  obtain ⟨start, os, hks, hinside, rfl⟩ := h
  exact ⟨lead ++ start, os, hks, hinside, (String.append_assoc ..).symm⟩

theorem clause {more : String} (hk : Written c n k more) :
    Clausal c n (ks ++ [k]) (text ++ more) := by
  obtain ⟨start, os, rfl, hinside, rfl⟩ := h
  obtain ⟨ts, hts, rfl⟩ := hk
  refine ⟨start, os ++ [⟨k, ts, ""⟩], List.map_append, ?_, ?_⟩
  · exact List.forall_mem_append.2 ⟨hinside, List.forall_mem_singleton.2 hts⟩
  · simp [Outcome.text, String.append_assoc]

theorem more (more : String) : Clausal c n ks (text ++ more) := by
  obtain ⟨start, os, rfl, hinside, rfl⟩ := h
  rcases List.eq_nil_or_concat os with rfl | ⟨os, o, rfl⟩
  · exact ⟨start ++ more, [], rfl, nofun, by simp⟩
  · rw [List.concat_eq_append, List.forall_mem_append, List.forall_mem_singleton] at hinside
    refine ⟨start, os ++ [{ o with rest := o.rest ++ more }], by simp, ?_, ?_⟩
    · exact List.forall_mem_append.2 ⟨hinside.1, List.forall_mem_singleton.2 hinside.2⟩
    · simp [Outcome.text, String.append_assoc]

end Clausal

theorem yields_declaration_clausal {f : Format} {signature : String} (h : Clausal c n ks signature)
    (hne : signature ≠ "") :
    Yields c (fun _ => True) (Clausal c n ks) (declaration f n signature) := by
  refine yields_last fun above => yields_pure ?_
  obtain ⟨lead, hlead⟩ := f.lines_concat above
  rw [hlead _ hne]
  exact h.prepend lead

theorem gives_child_written (lead : String) (slot : Slot) (t : TypeRef) :
    Gives c (fun _ => True) (fun text => Written c n (.ofTypes lead slot [t]) (lead ++ text))
      (child (n.part slot (.type t))).run := by
  refine fun d _ => ⟨fun text htext => ?_, trivial⟩
  have htext : ((text? (n.part slot (.type t))).run c d).1 = some text := htext
  have htexts : [text] = ((texts [n.part slot (.type t)]).run c d).1 := by
    rw [texts_cons, run_monadBind, htext]
    rfl
  exact written_of_ne_nil ⟨d, htexts⟩ nofun rfl (by simp [Clause.ofTypes])

variable {ctx : Context}

theorem gives_class_clausal (d : ClassDecl) :
    Gives c (fun _ => True) (Clausal c n (clauses (.classDecl d))) (renderClass ctx n d).run := by
  have hnone : Written c n (.ofTypes " extends " .supertype []) "" := written_of_nil rfl
  rw [clauses]
  refine gives_draftBind (gives_lift (yields_genericList_written d.generics)) fun _ hgenerics => ?_
  cases d.supertype
  case' none =>
    refine gives_draftBind (gives_draftPure hnone) fun supertype hsupertype => ?_
  case' some t =>
    refine gives_draftBind (gives_child_written " extends " .supertype t) fun text hsupertype => ?_
    refine gives_draftBind (gives_draftPure hsupertype) fun supertype hsupertype => ?_
  all_goals
    refine gives_draftBind (gives_lift (yields_typeClause_written _ _ d.interfaces))
      fun interfaces hinterfaces => gives_last fun body => gives_lift ?_
    refine yields_declaration_clausal ?_ (by simp)
    exact ((((clausal_nil _).clause hgenerics).clause hsupertype).clause hinterfaces).more _
      |>.more _

theorem yields_interface_clausal (d : InterfaceDecl) :
    Yields c (fun _ => True) (Clausal c n (clauses (.interfaceDecl d)))
      (renderInterface ctx n d) := by
  refine yields_bind (yields_genericList_written d.generics) fun generics hgenerics => ?_
  refine yields_bind (yields_typeClause_written _ _ d.interfaces) fun interfaces hinterfaces => ?_
  refine yields_last fun body => yields_declaration_clausal ?_ (by simp)
  exact (((clausal_nil _).clause hgenerics).clause hinterfaces).more _ |>.more _

theorem yields_enum_clausal (d : EnumDecl) :
    Yields c (fun _ => True) (Clausal c n (clauses (.enumDecl d))) (renderEnum ctx n d) := by
  refine yields_bind (yields_typeClause_written _ _ d.interfaces) fun interfaces hinterfaces => ?_
  refine yields_last fun constants => yields_last fun members => ?_
  refine yields_declaration_clausal ?_ (by simp)
  exact ((clausal_nil _).clause hinterfaces).more _ |>.more _

theorem gives_method_clausal (m : Method) :
    Gives c (fun _ => True) (Clausal c n (clauses (.method m))) (renderMethod ctx n m).run := by
  refine gives_draftBind (gives_lift (yields_genericList_written m.generics))
    fun generics hgenerics => ?_
  refine gives_last fun type => gives_last fun parameters => ?_
  refine gives_draftBind (gives_lift (yields_throwsClause_written m.exceptions))
    fun _ hthrows => ?_
  refine gives_lift (yields_declaration_clausal ?_ (by simp))
  have hlead (words : String) : Clausal c n [.ofGenerics m.generics]
      (words ++ if generics = "" then "" else generics ++ " ") := by
    split
    next hempty => exact hempty ▸ (clausal_nil _).clause hgenerics
    next =>
      rw [← String.append_assoc]
      exact ((clausal_nil _).clause hgenerics).more _
  exact ((((((((hlead _).more _).more _).more _).more _).more _).more _).clause hthrows).more _

theorem gives_constructor_clausal (x : Constructor) :
    Gives c (fun _ => True) (Clausal c n (clauses (.constructor x)))
      (renderConstructor ctx n x).run := by
  unfold renderConstructor
  cases ctx.stack.enclosing?.bind Node.name? with
  | none => exact gives_none
  | some name =>
    refine gives_last fun parameters => ?_
    refine gives_draftBind (gives_lift (yields_throwsClause_written x.exceptions))
      fun _ hthrows => ?_
    refine gives_lift (yields_declaration_clausal ?_ (by simp))
    exact ((clausal_nil _).clause hthrows).more _ |>.more _

theorem yields_type_clausal (t : TypeRef) :
    Yields c (fun _ => True) (Clausal c n (clauses (.type t))) (renderType n t) := by
  let k : Clause :=
    { lead := "<", slot := .arguments, items := t.arguments.map .ofArgument, close := ">" }
  have htext (name : String) {more : String} (hmore : Written c n k more) :
      Clausal c n (clauses (.type t)) (name ++ more ++ Text.times t.dimensions.toNat "[]") :=
    ((clausal_nil name).clause hmore).more _
  refine yields_last fun name => ?_
  dsimp only
  split
  next hempty =>
    exact yields_pure (htext name (written_of_nil (by simpa [k] using hempty)))
  next hne =>
    refine yields_bind (yields_commaList_inside k) ?_
    rintro _ ⟨ts, hts, rfl⟩
    exact yields_pure (htext name (written_of_ne_nil hts (by simpa [k] using hne) rfl rfl))

theorem yields_generic_clausal (g : Generic) :
    Yields c (fun _ => True) (Clausal c n (clauses (.generic g))) (renderGeneric n g) := by
  let k : Clause :=
    { lead := " " ++ g.kind.keyword ++ " ", slot := .bounds, items := g.bounds.map .type
      separator := " & " }
  have hname (name : String) {more : String} (hmore : Written c n k more) :
      Clausal c n (clauses (.generic g)) (name ++ more) := (clausal_nil name).clause hmore
  unfold renderGeneric
  dsimp only
  split
  next hempty =>
    rw [← String.append_empty (s := g.name.getD "?")]
    exact yields_pure (hname _ (written_of_nil (by simpa [k] using hempty)))
  next hne =>
    refine yields_bind (yields_inside k) fun ts hts => yields_pure ?_
    rw [String.append_assoc, String.append_assoc, String.append_assoc]
    refine hname _ (written_of_ne_nil hts (by simpa [k] using hne) rfl ?_)
    simp [k, String.append_assoc]

theorem gives_clausal : Gives c (fun _ => True) (Clausal c n (clauses n.item)) (script ctx n) := by
  obtain ⟨item, place⟩ := n
  cases item with
  | classDecl d => exact gives_class_clausal d
  | interfaceDecl d => exact gives_map (yields_interface_clausal d)
  | enumDecl d => exact gives_map (yields_enum_clausal d)
  | method m => exact gives_method_clausal m
  | constructor x => exact gives_constructor_clausal x
  | type t => exact gives_map (yields_type_clausal t)
  | generic g => exact gives_map (yields_generic_clausal g)
  | _ => exact fun d _ => ⟨fun text _ => clausal_nil text, trivial⟩

end

/-! The depth limit. -/

theorem text_of_listed (f : Format) (remaining : Nat) (s : Stack) {n : Node}
    (h : (∃ t, n.item = .type t) ∨ ∃ g, n.item = .generic g) (d : Dependencies) :
    ∃ text, ((text? n).run ((dispatcher f).children (remaining + 1) s) d).1 = some text := by
  obtain ⟨item, place⟩ := n
  rcases h with ⟨t, rfl⟩ | ⟨g, rfl⟩
  · obtain ⟨base, hbase⟩ := text_type f remaining s t place d
    exact ⟨_, hbase⟩
  · have hscript (ctx : Context) : script ctx ⟨.generic g, place⟩ =
        renderGeneric ⟨.generic g, place⟩ g >>= fun text => pure (some text) := rfl
    rw [run_text?_succ, hscript, run_monadBind]
    exact ⟨_, rfl⟩

theorem listed_of_mem_clauses {i m : Item} {k : Clause} (hk : k ∈ clauses i) (hm : m ∈ k.items) :
    (∃ t, m = .type t) ∨ ∃ g, m = .generic g := by
  have htypes {ts : List TypeRef} (h : m ∈ ts.map Item.type) :
      (∃ t, m = .type t) ∨ ∃ g, m = .generic g := by
    obtain ⟨t, -, rfl⟩ := List.mem_map.1 h
    exact .inl ⟨t, rfl⟩
  have hgenerics {gs : List Generic} (h : m ∈ gs.map Item.generic) :
      (∃ t, m = .type t) ∨ ∃ g, m = .generic g := by
    obtain ⟨g, -, rfl⟩ := List.mem_map.1 h
    exact .inr ⟨g, rfl⟩
  cases i with
  | classDecl d =>
    simp only [clauses, List.mem_cons, List.not_mem_nil, or_false] at hk
    rcases hk with rfl | rfl | rfl
    exacts [hgenerics hm, htypes hm, htypes hm]
  | interfaceDecl d | method d =>
    simp only [clauses, List.mem_cons, List.not_mem_nil, or_false] at hk
    rcases hk with rfl | rfl
    exacts [hgenerics hm, htypes hm]
  | enumDecl d | constructor d | generic g =>
    obtain rfl := List.mem_singleton.1 hk
    exact htypes hm
  | type t =>
    obtain rfl := List.mem_singleton.1 hk
    obtain ⟨a, -, rfl⟩ := List.mem_map.1 hm
    cases a with
    | type t => exact .inl ⟨t, rfl⟩
    | wildcard g => exact .inr ⟨g, rfl⟩
  | _ => exact nomatch hk

theorem length_texts {c : Children} {ns : List Node}
    (h : ∀ n ∈ ns, ∀ d, ∃ text, ((text? n).run c d).1 = some text) (d : Dependencies) :
    ((texts ns).run c d).1.length = ns.length := by
  induction ns generalizing d with
  | nil => rfl
  | cons n ns ih =>
    obtain ⟨hn, hns⟩ := List.forall_mem_cons.1 h
    obtain ⟨text, htext⟩ := hn d
    rw [texts_cons, run_monadBind, htext, run_monadBind, run_pure]
    simp [ih hns]

theorem texts_zero (f : Format) (s : Stack) (ns : List Node) (d : Dependencies) :
    ((texts ns).run ((dispatcher f).children 0 s) d).1 = [] := by
  induction ns generalizing d with
  | nil => rfl
  | cons n ns ih =>
    rw [texts_cons, run_monadBind, run_monadBind, run_pure]
    exact ih _

/-- The clauses of a rendered node follow on one another in its text, each with what its items have
come to: with everything that it lists where the depth limit leaves room below the node, and with
nothing where it does not. So a clause dangles if and only if its node is the last that the limit
allows, and its transform has only looked at whether there is something to list. -/
theorem clause_dangles_iff (d : Dependencies) (f : Format) (maxDepth : Nat) (s : Stack) (n : Node)
    (text : String) (h : ((Handle.mk (binding.session d f maxDepth) s).render n).1 = some text) :
    let inner : Handle := Handle.enter ⟨binding.session d f maxDepth, s⟩ n
    ∃ (start : String) (os : List Outcome), os.map (·.clause) = clauses n.item
      ∧ text = start ++ String.join (os.map (·.text))
      ∧ ∀ o ∈ os, o.Inside inner.children n
        ∧ (s.depth + 1 < maxDepth → o.texts.length = o.clause.items.length)
        ∧ (o.clause.Dangles o.texts ↔
          s.depth + 1 = maxDepth ∧ o.clause.items ≠ [] ∧ o.clause.guarded = false) := by
  intro inner
  have hrender : ((Handle.mk (binding.session d f maxDepth) s).render n).1 =
      ((text? n).run ((dispatcher f).children (maxDepth - s.depth) s) d).1 := rfl
  rw [hrender] at h
  cases hremaining : maxDepth - s.depth with
  | zero =>
    rw [hremaining] at h
    exact nomatch h
  | succ remaining =>
    rw [hremaining, run_text?_succ] at h
    have hinner : inner.children = below f remaining s n := by
      have hroom : inner.remaining = remaining := by
        have hdef : inner.remaining = maxDepth - (s.depth + 1) := rfl
        omega
      unfold Handle.children
      rw [hroom]
      rfl
    obtain ⟨start, os, hks, hinside, rfl⟩ := (gives_clausal d trivial).1 text h
    refine ⟨start, os, hks, rfl, fun o ho => ⟨hinner ▸ hinside o ho, ?_⟩⟩
    obtain ⟨e, htexts⟩ := hinside o ho
    have hclause : o.clause ∈ clauses n.item := hks ▸ List.mem_map_of_mem ho
    cases remaining with
    | zero =>
      have hlast : s.depth + 1 = maxDepth := by omega
      have hnil : o.texts = [] := by rw [htexts, texts_zero]
      refine ⟨fun hroom => absurd hlast (Nat.ne_of_lt hroom), ?_⟩
      rw [hnil, Clause.dangles_nil, and_iff_right hlast]
    | succ remaining =>
      have hroom : s.depth + 1 ≠ maxDepth := by omega
      have hlength : o.texts.length = o.clause.items.length := by
        rw [htexts, length_texts fun m hm => ?_, Node.parts, List.length_mapIdx]
        obtain ⟨i, hi, rfl⟩ := List.mem_mapIdx.1 hm
        exact text_of_listed f remaining _ (listed_of_mem_clauses hclause (List.getElem_mem hi))
      exact ⟨fun _ => hlength, iff_of_false (Clause.not_dangles hlength) fun h => hroom h.1⟩

theorem clause_dangles_crate :
    let n : Node := ⟨.classDecl { name := "Crate", interfaces := [.ofName "Box"] }, []⟩
    let text := "class Crate implements  \x7b\x7d"
    ((Handle.mk (binding.session {} {} 1) {}).render n).1 = some text
      ∧ ∃ (start : String) (os : List Outcome) (o : Outcome),
        text = start ++ String.join (os.map (·.text)) ∧ o ∈ os
          ∧ o.clause = .ofTypes " implements " .interfaces [.ofName "Box"]
          ∧ o.clause.Dangles o.texts := by
  intro n text
  have htext : ((Handle.mk (binding.session {} {} 1) {}).render n).1 = some text := by
    decide +kernel
  obtain ⟨start, os, hclauses, hjoin, hos⟩ := clause_dangles_iff {} {} 1 {} n text htext
  have hmem : Clause.ofTypes " implements " .interfaces [.ofName "Box"] ∈ os.map (·.clause) := by
    rw [hclauses]
    simp [n, clauses]
  obtain ⟨o, ho, hclause⟩ := List.mem_map.1 hmem
  refine ⟨htext, start, os, o, hjoin, ho, hclause, (hos o ho).2.2.2 ⟨rfl, ?_⟩⟩
  rw [hclause]
  exact ⟨nofun, rfl⟩

end Scribe.Java
