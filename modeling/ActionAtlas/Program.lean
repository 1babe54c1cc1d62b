import ActionAtlas.CSharp.Collection
import ActionAtlas.Names.Assembly

/-!
A program as the texts that are read for it, one after the other.
-/

namespace ActionAtlas

structure Program where
  files : List Source.File

namespace Program

def empty : Program := ⟨[]⟩

def add (program : Program) (text : String) : Program :=
  ⟨program.files ++ [CSharp.declarationsOf text]⟩

def ofTexts (texts : List String) : Program :=
  texts.foldl add empty

def graph (program : Program) : SymbolGraph :=
  Names.assemble program.files

end Program

end ActionAtlas
