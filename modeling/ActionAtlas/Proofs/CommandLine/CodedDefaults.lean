import ActionAtlas.Proofs.CommandLine.EmittedGraph
import ActionAtlas.Proofs.Mvc.CodedDefaults
import ActionAtlas.Proofs.Names.Spellings

/-!
Programs with characters as the default values of integer types, against the same programs with the
codes of these characters.

Nothing makes a code of a character. So the two have one graph only if nothing was written anew,
before and after loading, and they have one model exactly if the actions are the same.
-/

namespace ActionAtlas

theorem Evaluated.forType_char (c : Char) (shape : TypeShape) :
    (Evaluated.constant (.char c)).forType shape = .constant (.char c) := by
  rw [forType, Constant.forType]
  cases shape.constantType? <;> rfl

theorem Names.assemble_eq_iff_of_coded {files coded : List Source.File}
    (codes : Source.Coded files coded) : assemble coded = assemble files ↔ coded = files := by
  rw [← types_assemble_eq_iff codes]
  refine ⟨congrArg SymbolGraph.types, ?_⟩
  exact congrArg SymbolGraph.indexed

theorem Names.reloaded_assemble_eq_iff_of_coded {files coded : List Source.File}
    (codes : Source.Coded files coded) :
    (assemble coded).reloaded = (assemble files).reloaded ↔ coded = files := by
  refine ⟨fun same => ?_, fun same => by rw [same]⟩
  have types : (assemble coded).types.map TypeDeclaration.reloaded =
      (assemble files).types.map TypeDeclaration.reloaded :=
    congrArg SymbolGraph.types same
  exact (types_assemble_eq_iff codes).mp
    (TypeDeclaration.tellsApart_reloaded.map _ _ (coded_assemble codes) types)

namespace CommandLine

open Json Mvc Names

/-- A character stays a character under every type. So a program and the same program with codes
in place of some of its characters have one graph, built or loaded, only if they are the same, and
one model exactly if no action tells a code from a character. -/
theorem characters_stay {files coded : List Source.File} (codes : Source.Coded files coded)
    {options : Options} (unlimited : options.timeout? = none) {text codedText : String}
    (written : (assemble files).toJson.WrittenAs text)
    (codedWritten : (assemble coded).toJson.WrittenAs codedText) {loaded : SymbolGraph}
    (loads : SymbolGraph.load text = .ok loaded) :
    (∀ c shape, (Evaluated.constant (.char c)).forType shape = .constant (.char c)) ∧
      (assemble coded = assemble files ↔ coded = files) ∧
      (modelText options (assemble coded) = modelText options (assemble files) ↔
        (listedTypes options (assemble coded)).map eligibleMethods =
          (listedTypes options (assemble files)).map eligibleMethods) ∧
      (SymbolGraph.load codedText = .ok loaded ↔ coded = files) := by
  refine ⟨Evaluated.forType_char, assemble_eq_iff_of_coded codes, ?_, ?_, ?_⟩
  · rw [modelText_eq_ok unlimited, modelText_eq_ok unlimited, Except.ok.injEq]
    exact pretty_eq_iff_of_coded (coded_assemble codes) options
  · intro codedLoads
    rw [← reloaded_assemble_eq_iff_of_coded codes,
      SymbolGraph.reloaded_eq_of_load codedWritten codedLoads,
      SymbolGraph.reloaded_eq_of_load written loads]
  · rintro rfl
    rw [SymbolGraph.load_written _ codedWritten, ← SymbolGraph.load_written _ written]
    exact loads

def pageMethod (default : Constant) : Source.Method where
  name := "Index"
  kind := .ordinary
  isGeneric := false
  modifiers := ["public"]
  attributes := []
  parameters := [⟨"page", .predefined "int", some (.constant default)⟩]

def pageController (default : Constant) : Source.TypeDeclaration :=
  { Source.TypeDeclaration.plain ⟨["Web"], [], [], []⟩ "HomeController" with
    modifiers := ["public"]
    bases := [.name [("Controller", [])]]
    methods := [pageMethod default] }

/-- A controller whose action takes a page, with a default value. -/
def pageFiles (default : Constant) : List Source.File :=
  [{ globalUsings := ["Microsoft.AspNetCore.Mvc"], types := [pageController default] }]

theorem coded_pageFiles (c : Char) :
    Source.Coded (pageFiles (.char c)) (pageFiles (.codeOf c)) := by
  let table := NameTable.ofFiles (pageFiles (.char c))
  have integral : (table.shape (pageController (.char c)).innerScope
      (.predefined "int")).HoldsCodes :=
    ⟨.int, by decide, .inl (NameTable.shape_keyword .int)⟩
  have method : Source.Method.Coded table (pageController (.char c)).innerScope
      (pageMethod (.char c)) (pageMethod (.codeOf c)) :=
    .of _ _ (.cons (.of _ _ (.code c integral)) .nil)
  exact .cons (.of _ _ (.cons (.of _ _ (.cons method .nil)) .nil)) .nil

def defaultsOf (graph : SymbolGraph) : List (List (List (Option Evaluated))) :=
  ((listedTypes frameworkOptions graph).map eligibleMethods).map fun methods =>
    methods.map fun method => method.parameters.map Parameter.default?

theorem characters_stay_pageFiles :
    Source.Coded (pageFiles (.char 'a')) (pageFiles (.codeOf 'a')) ∧
      assemble (pageFiles (.codeOf 'a')) ≠ assemble (pageFiles (.char 'a')) ∧
      modelText frameworkOptions (assemble (pageFiles (.codeOf 'a'))) ≠
        modelText frameworkOptions (assemble (pageFiles (.char 'a'))) ∧
      SymbolGraph.load (assemble (pageFiles (.codeOf 'a'))).toJson.pretty ≠
        SymbolGraph.load (assemble (pageFiles (.char 'a'))).toJson.pretty := by
  obtain ⟨shallow, character, code⟩ :
      (assemble (pageFiles (.char 'a'))).toJson.fits depthLimit = true ∧
        defaultsOf (assemble (pageFiles (.char 'a'))) = [[[some (.constant (.char 'a'))]]] ∧
        defaultsOf (assemble (pageFiles (.codeOf 'a'))) = [[[some (.constant (.int 97))]]] := by
    decide +kernel
  have loads := SymbolGraph.load_written _ (assemble (pageFiles (.char 'a'))).toJson.writtenAs_pretty
  rw [if_pos shallow] at loads
  have unlimited : frameworkOptions.timeout? = none := rfl
  obtain ⟨-, graphs, models, loadedGraphs⟩ :=
    characters_stay (coded_pageFiles 'a') unlimited
      (assemble (pageFiles (.char 'a'))).toJson.writtenAs_pretty
      (assemble (pageFiles (.codeOf 'a'))).toJson.writtenAs_pretty loads
  have different : pageFiles (.codeOf 'a') ≠ pageFiles (.char 'a') := by
    simp [pageFiles, pageController, pageMethod, Constant.codeOf]
  refine ⟨coded_pageFiles 'a', graphs.not.mpr different, models.not.mpr ?_, ?_⟩
  · intro same
    have defaults : defaultsOf (assemble (pageFiles (.codeOf 'a'))) =
        defaultsOf (assemble (pageFiles (.char 'a'))) := by
      rw [defaultsOf, same, defaultsOf]
    rw [code, character] at defaults
    exact absurd defaults (by decide)
  · rw [loads]
    exact loadedGraphs.not.mpr different

end CommandLine

end ActionAtlas
