import Scribe.Proofs.Layout

/-!
Empty lines in a file stand between groups of lines and nowhere else.
-/
namespace Scribe.Java

/-- Of a file no string of which reaches over a line, but for comments, quoted text and code, and no
code of which has an empty line, the text in every format is empty or ends with one terminator. It
begins with a line that is not empty, and an empty line in it stands alone, neither after the line
that opens a body nor before the line that closes one. -/
theorem render_wellSpaced (x : File) (place : Place) (hstrings : (Item.file x).OneLine)
    (hcode : (Item.file x).Throughout Item.Dense) (ignored : List IgnorePattern) (maxDepth : Nat) :
    ∃ ls : List Line, WellSpaced ls ∧ ∀ f : Format, f.Regular →
      ((session ignored f maxDepth).render ⟨.file x, place⟩).1 =
        (if maxDepth = 0 then none else some (f.page ls))
      ∧ Text.splitOn f.lineTerminator (f.page ls) = ls.map (·.text f) ++ [""]
      ∧ (f.page ls = "" ∨ EndsOnce f.lineTerminator (f.page ls)) := by
  obtain ⟨ls, e, hspaced, hrender⟩ := binding.render_of_pagedBy (n := ⟨.file x, place⟩)
    (fun _ => wellSpaced_nil) (fun remaining => uniform_spaced (p := True) remaining hstrings
      fun _ => hcode) ignored maxDepth
  refine ⟨ls, hspaced trivial, fun f hf => ⟨?_, ?_, ?_⟩⟩
  · exact congrArg Prod.fst (hrender f hf)
  · exact (hspaced trivial).splitOn_page hf
  · exact (hspaced trivial).page_endsOnce hf

def grouped : File where
  name := "Grouped.java"
  javadoc := some { text := "Two\nlines." }
  classes := [.enumDecl
    { name := "Grouped"
      constants := [{ name := "A", methods := [{ name := "run", type := .ofName "void" }] },
        { name := "B" }]
      fields := [{ name := "log", type := .ofName "util.Log", value := some (.text "a\nb") }]
      initializers := [{ code := ["if (b) \x7b\n  run();", "\x7d"] }] }]

theorem oneLine_grouped : (Item.file grouped).OneLine := by
  simp [Item.oneLine_iff_forall, Item.inside, Item.heading, grouped, Item.ofTypeDecl, Item.javadoc?,
    Item.annotations?, Item.valueContents, TypeRef.ofName]
  decide

theorem dense_grouped : (Item.file grouped).Throughout Item.Dense := by
  simp [Item.throughout_iff_forall, Item.inside, Item.heading, grouped, Item.ofTypeDecl,
    Item.javadoc?, Item.annotations?, Item.valueContents, TypeRef.ofName, Item.Dense]
  decide

theorem render_wellSpaced_grouped :
    (Item.file grouped).OneLine ∧ (Item.file grouped).Throughout Item.Dense
      ∧ (∃ ls : List Line, WellSpaced ls ∧ ∀ f : Format, f.Regular →
          ((session ignorePatterns f 8).render ⟨.file grouped, []⟩).1 = some (f.page ls)
          ∧ Text.splitOn f.lineTerminator (f.page ls) = ls.map (·.text f) ++ [""]
          ∧ (f.page ls = "" ∨ EndsOnce f.lineTerminator (f.page ls)))
      ∧ ((session ignorePatterns ⟨"\t", "\n"⟩ 8).render ⟨.file grouped, []⟩).1 =
          some ("/**\n * Two\n * lines.\n */\n\nimport util.Log;\n\nenum Grouped \x7b\n"
            ++ "\tA \x7b\n\t\tvoid run() \x7b\x7d\n\t\x7d,\n\tB;\n\n\tLog log = \"a\\nb\";\n\n"
            ++ "\t\x7b\n\t\tif (b) \x7b\n\t\t  run();\n\t\t\x7d\n\t\x7d\n\x7d\n") :=
  ⟨oneLine_grouped, dense_grouped,
    render_wellSpaced grouped [] oneLine_grouped dense_grouped ignorePatterns 8, by decide +kernel⟩

end Scribe.Java
