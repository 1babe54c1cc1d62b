import ActionAtlas.CommandLine.Arguments
import ActionAtlas.Proofs.Mvc.Widening

/-!
A further flag on the command line. Another controller base, or the inclusion of abstract types,
widens the options wherever the flag is put, so no controller is lost by it and none changes.
-/

namespace ActionAtlas.CommandLine

open Mvc

/-! ### Flags that widen -/

namespace Overrides

/-- The further changes are the same but for more controller bases and the inclusion of abstract
types. -/
structure WidenedBy (overrides further : Overrides) : Prop where
  suffix_eq : further.controllerSuffix? = overrides.controllerSuffix?
  timeout_eq : further.timeout? = overrides.timeout?
  bases : ∀ base ∈ overrides.controllerBases, base ∈ further.controllerBases
  abstracts : overrides.includeAbstract = true → further.includeAbstract = true

theorem mem_controllerBases_options {overrides : Overrides} {settings : Settings} {base : String} :
    base ∈ (overrides.options settings).controllerBases ↔
      base ∈ settings.options.controllerBases ∨ base ∈ overrides.controllerBases := by
  change base ∈ overrides.controllerBases.foldl _ settings.options.controllerBases ↔ _
  generalize settings.options.controllerBases = bases
  induction overrides.controllerBases generalizing bases with
  | nil => simp
  | cons first rest ih =>
      rw [List.foldl_cons, ih]
      by_cases known : first ∈ bases
      · rw [if_pos known, List.mem_cons]
        constructor
        · rintro (before | later)
          · exact .inl before
          · exact .inr (.inr later)
        · rintro (before | rfl | later)
          · exact .inl before
          · exact .inl known
          · exact .inr later
      · rw [if_neg known, List.mem_append, List.mem_singleton, List.mem_cons, or_assoc]

variable {overrides further : Overrides}

theorem WidenedBy.options (wider : overrides.WidenedBy further) (settings : Settings) :
    (overrides.options settings).WidenedBy (further.options settings) where
  suffix_eq := by simp only [Overrides.options, wider.suffix_eq]
  bases := by
    intro base member
    rw [mem_controllerBases_options] at member ⊢
    exact member.imp_right (wider.bases base)
  skips := by
    simp only [Overrides.options, Bool.and_eq_true, Bool.not_eq_true']
    rintro ⟨skips, excluded⟩
    refine ⟨skips, ?_⟩
    cases included : overrides.includeAbstract with
    | false => rfl
    | true =>
        rw [wider.abstracts included] at excluded
        cases excluded

theorem WidenedBy.timeout?_eq (wider : overrides.WidenedBy further) (settings : Settings) :
    (further.options settings).timeout? = (overrides.options settings).timeout? := by
  simp only [Overrides.options, wider.timeout_eq]

end Overrides

namespace Given

variable {before after : Given} {flag other : Flag} {value : String}

theorem value?_insert_of_ne (different : other ≠ flag) :
    Given.value? (before ++ (flag, value) :: after) other = Given.value? (before ++ after) other := by
  rw [Given.value?, List.lookup_append, List.lookup_cons, beq_false_of_ne different,
    Given.value?, List.lookup_append]

theorem has_insert (given : Given.has (before ++ after) other = true) :
    Given.has (before ++ (flag, value) :: after) other = true := by
  by_cases same : other = flag
  · subst same
    simp [Given.has, Given.value?, List.lookup_append]
  · rwa [Given.has, value?_insert_of_ne same]

theorem controllerBases_append (before after : Given) :
    Given.controllerBases (before ++ after) = before.controllerBases ++ after.controllerBases := by
  simp only [Given.controllerBases, List.filter_append, List.flatMap_append]

theorem overrides_insert (before after : Given) (value : String)
    (further : flag = .controllerBase ∨ flag = .includeAbstract) :
    (Given.overrides (before ++ after)).WidenedBy
      (Given.overrides (before ++ (flag, value) :: after)) where
  suffix_eq := value?_insert_of_ne (by rcases further with rfl | rfl <;> decide)
  timeout_eq := by
    simp only [Given.overrides]
    rw [value?_insert_of_ne (by rcases further with rfl | rfl <;> decide)]
  bases := by
    intro base member
    change base ∈ Given.controllerBases _ at member ⊢
    have split : Given.controllerBases ((flag, value) :: after) =
        Given.controllerBases [(flag, value)] ++ after.controllerBases :=
      controllerBases_append [(flag, value)] after
    rw [controllerBases_append, List.mem_append] at member ⊢
    rw [split, List.mem_append]
    exact member.imp_right .inr
  abstracts := has_insert

end Given

/-! ### What is found with them -/

/-- Wider options keep what is found, and a further flag for a controller base or for abstract types
widens the options. -/
theorem keepsFound_further (graph : SymbolGraph) :
    (∀ narrow wide : Options, narrow.timeout? = none → wide.timeout? = none →
        narrow.WidenedBy wide → KeepsFound graph narrow wide) ∧
      ∀ (settings : Settings) (before after : Given) (flag : Flag) (value : String),
        flag = .controllerBase ∨ flag = .includeAbstract →
        ((Given.overrides (before ++ after)).options settings).timeout? = none →
        KeepsFound graph ((Given.overrides (before ++ after)).options settings)
          ((Given.overrides (before ++ (flag, value) :: after)).options settings) := by
  refine ⟨fun narrow wide narrowly widely wider =>
    keepsFound_of_widenedBy narrowly widely wider graph, ?_⟩
  intro settings before after flag value further unlimited
  have wider := Given.overrides_insert before after value further
  refine keepsFound_of_widenedBy unlimited ?_ (wider.options settings) graph
  rw [wider.timeout?_eq settings, unlimited]

/-- An abstract class, two classes that extend each other, and a second class of a name that extends
one of them. -/
def hooks : SymbolGraph :=
  .unindexed [.plainClass "Web" "HomeController" (some "Web.Page") ["Index"],
    { TypeDeclaration.plainClass "Web" "Page" (some "Microsoft.AspNetCore.Mvc.Controller")
        ["Help"] with
      isAbstract := true },
    .plainClass "Web" "Plugin" (some "Web.Hook<Web.Page>") ["Run"],
    .plainClass "Web" "Hook" (some "Web.Plugin") ["Stop"],
    .plainClass "Web" "HomeController" (some "Web.Plugin") ["Close"]]

def hookOptions : Options :=
  { frameworkOptions with
    controllerBases := "Web.Hook" :: frameworkBases
    skipAbstract := false }

def outputFlag : Given := [(.output, "areas.json")]

def abstractFlag : Given := [(.includeAbstract, "")]

theorem keepsFound_further_hooks :
    frameworkOptions.timeout? = none ∧ hookOptions.timeout? = none ∧
      frameworkOptions.WidenedBy hookOptions ∧ KeepsFound hooks frameworkOptions hookOptions ∧
      ((Given.overrides (outputFlag ++ abstractFlag)).options .standard).timeout? = none ∧
      KeepsFound hooks ((Given.overrides (outputFlag ++ abstractFlag)).options .standard)
        ((Given.overrides (outputFlag ++ (.controllerBase, "Web.Hook") :: abstractFlag)).options
          .standard) ∧
      (controllers frameworkOptions hooks).map (fun pair => pair.2.name) = ["Home"] ∧
      (controllers hookOptions hooks).map (fun pair => pair.2.name) =
        ["Home", "Page", "Plugin", "Hook", "Home"] := by
  have wider : frameworkOptions.WidenedBy hookOptions :=
    ⟨rfl, fun _ member => List.mem_cons_of_mem _ member, nofun⟩
  obtain ⟨widely, flags⟩ := keepsFound_further hooks
  exact ⟨rfl, rfl, wider, widely frameworkOptions hookOptions rfl rfl wider, rfl,
    flags .standard outputFlag abstractFlag .controllerBase "Web.Hook" (.inl rfl) rfl,
    by decide +kernel, by decide +kernel⟩

end ActionAtlas.CommandLine
