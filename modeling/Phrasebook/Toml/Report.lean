import Phrasebook.Toml.Document

/-!
What is told of a document that cannot be used. The report has the place of the first error on a line of
its own; below it are a drawing of the lines there and a message, in the words of the parser. These words
are not made here: whoever reads a document brings them along.
-/

namespace Phrasebook.Toml

/-- What a parser says of a document below the place of its first error. -/
structure Commentary where
  excerpt : String → String
  message : String → String

/-- A parser that has no words. -/
def Commentary.silent : Commentary := ⟨fun _ => "", fun _ => ""⟩

/-- The report on the first error of a document. -/
structure Report where
  place : Place
  excerpt : String
  message : String
  deriving DecidableEq, Repr

def Commentary.report (commentary : Commentary) (document : String) (place : Place) : Report :=
  ⟨place, commentary.excerpt document, commentary.message document⟩

/-- The line of the place, the lines of the excerpt, and the message with a line end after it. -/
def Report.text (report : Report) : String :=
  "TOML parse error at line " ++ toString report.place.line ++ ", column " ++
    toString report.place.column ++ "\n" ++ report.excerpt ++ report.message ++ "\n"

end Phrasebook.Toml
