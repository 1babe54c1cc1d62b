import ActionAtlas.CommandLine.Run
import ActionAtlas.Proofs.Mvc.Reload

/-!
Scanning a program, against discovery on the graph that a scan emits.

The graph of a program may be written and loaded again before discovery. The text of the model is
the same exactly if no listed type takes its area from a character, which is no area name until it
is loaded as a text, and the text of every default value that is a double is read back.
-/

namespace ActionAtlas.CommandLine

open Json Mvc

theorem modelText_eq_ok {options : Options} (unlimited : options.timeout? = none)
    (graph : SymbolGraph) :
    modelText options graph =
      .ok (modelToJson (Grouping.ofPairs (controllers options graph)).areas).pretty := by
  rw [modelText, discover_eq_ok unlimited]

theorem modelText_reloaded_iff {options : Options} (unlimited : options.timeout? = none)
    {graph : SymbolGraph} (settled : ∀ type ∈ graph.types, type.IsSettled) :
    modelText options graph.reloaded = modelText options graph ↔
      ∀ type ∈ listedTypes options graph, Survives graph type := by
  rw [modelText_eq_ok unlimited, modelText_eq_ok unlimited, Except.ok.injEq]
  exact pretty_reloaded_iff options graph settled

/-- If the written graph of a program loads, discovery on it and on the program itself give the
same text exactly if every listed type survives loading. -/
theorem modelText_load_iff (texts : List String) (options : Options)
    (unlimited : options.timeout? = none) {text : String}
    (written : (Program.ofTexts texts).graph.toJson.WrittenAs text) {loaded : SymbolGraph}
    (loads : SymbolGraph.load text = .ok loaded) :
    modelText options loaded = modelText options (Program.ofTexts texts).graph ↔
      ∀ type ∈ listedTypes options (Program.ofTexts texts).graph,
        Survives (Program.ofTexts texts).graph type := by
  have same : loaded = (Program.ofTexts texts).graph.reloaded := by
    rw [SymbolGraph.load_written _ written] at loads
    split at loads
    · exact (Except.ok.inj loads).symm
    · cases loads
  rw [same]
  exact modelText_reloaded_iff unlimited (Names.isSettled_assemble (Program.ofTexts texts).files)

/-- A controller in an area whose name is written as a character. -/
def initialArea : List String :=
  ["using Microsoft.AspNetCore.Mvc;\nnamespace Web;\n[Area('x')]\n" ++
    "public class HomeController : Controller \x7b public void Index() \x7b\x7d \x7d\n"]

theorem modelText_load_iff_initialArea :
    frameworkOptions.timeout? = none ∧
      SymbolGraph.load (Program.ofTexts initialArea).graph.toJson.pretty =
        .ok (Program.ofTexts initialArea).graph.reloaded ∧
      (modelText frameworkOptions (Program.ofTexts initialArea).graph.reloaded =
          modelText frameworkOptions (Program.ofTexts initialArea).graph ↔
        ∀ type ∈ listedTypes frameworkOptions (Program.ofTexts initialArea).graph,
          Survives (Program.ofTexts initialArea).graph type) ∧
      ¬∀ type ∈ listedTypes frameworkOptions (Program.ofTexts initialArea).graph,
          Survives (Program.ofTexts initialArea).graph type := by
  have unlimited : frameworkOptions.timeout? = none := rfl
  obtain ⟨shallow, built, loaded⟩ :
      (Program.ofTexts initialArea).graph.toJson.fits depthLimit = true ∧
        (listedTypes frameworkOptions (Program.ofTexts initialArea).graph).map
            (areaOf (Program.ofTexts initialArea).graph) = [""] ∧
          (listedTypes frameworkOptions (Program.ofTexts initialArea).graph).map
            (fun type => areaOf (Program.ofTexts initialArea).graph.reloaded type.reloaded) =
              ["x"] := by
    decide +kernel
  have written := (Program.ofTexts initialArea).graph.toJson.writtenAs_pretty
  have loads := SymbolGraph.load_written _ written
  rw [if_pos shallow] at loads
  refine ⟨unlimited, loads, modelText_load_iff initialArea _ unlimited written loads, ?_⟩
  intro survives
  have same := List.map_congr_left fun type member => areaOf_reloaded (survives type member).area
  rw [built, loaded] at same
  exact absurd same (by decide)

end ActionAtlas.CommandLine
