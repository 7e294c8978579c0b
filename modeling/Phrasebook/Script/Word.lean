/-!
Words that a script may not use as the name of a parameter.
-/

namespace Phrasebook.Script

/-- The reserved words, those of strict mode and of modules among them. -/
def reservedWords : List String :=
  ["break", "case", "catch", "class", "const", "continue", "debugger", "default", "delete", "do",
    "else", "enum", "export", "extends", "false", "finally", "for", "function", "if", "import",
    "in", "instanceof", "new", "null", "return", "super", "switch", "this", "throw", "true", "try",
    "typeof", "var", "void", "while", "with", "yield", "let", "static", "implements", "interface",
    "package", "private", "protected", "public", "await"]

def isReserved (word : String) : Bool := reservedWords.contains word

/-- The identifier of a name of which nothing else is known: a reserved word gets a low line in
front. -/
def identifierOf (name : String) : String := if isReserved name then "_" ++ name else name

end Phrasebook.Script
