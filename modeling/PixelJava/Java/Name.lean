/-
Names in Java. Source names are ASCII words; a Java name may also hold a dollar sign, which is
therefore free for renaming, and must not be a reserved word. A package is a list of source names
joined by dots, none of them reserved.
-/
import PixelJava.Java.Library

namespace PixelJava.Java

/-- The keywords and literals of Java. -/
def keywords : List String := [
  "abstract", "assert", "boolean", "break", "byte", "case", "catch", "char", "class", "const",
  "continue", "default", "do", "double", "else", "enum", "extends", "final", "finally", "float",
  "for", "goto", "if", "implements", "import", "instanceof", "int", "interface", "long", "native",
  "new", "package", "private", "protected", "public", "return", "short", "static", "strictfp",
  "super", "switch", "synchronized", "this", "throw", "throws", "transient", "try", "void",
  "volatile", "while", "true", "false", "null", "_"]

/-- The words that no emitted name may be: besides the keywords, the classes that emitted code
refers to, which a variable of the same name would hide. -/
def reserved : List String :=
  keywords ++ Library.all.map Library.name ++ ["Math", "String"]

def isReserved (name : String) : Bool :=
  reserved.contains name

/-- Whether a character may start a source name. -/
def isWordStart (c : Char) : Bool :=
  ('A' ≤ c && c ≤ 'Z') || ('a' ≤ c && c ≤ 'z') || c = '_'

/-- Whether a character may stand in a source name. -/
def isWordChar (c : Char) : Bool :=
  isWordStart c || ('0' ≤ c && c ≤ '9')

/-- Whether `cs` is a word of the source language. -/
def isWord : List Char → Bool
  | [] => false
  | c :: rest => isWordStart c && rest.all isWordChar

/-- Whether a name can be declared in a program. -/
def isSourceName (name : String) : Bool :=
  isWord name.toList

/-- Whether a name can be written in Java as it is. -/
def isName (name : String) : Bool :=
  (match name.toList with
    | [] => false
    | c :: rest => (isWordStart c || c = '$') && rest.all fun d => isWordChar d || d = '$') &&
    !isReserved name

/-- Whether a name can stand in a package clause: its parts between dots are words. -/
def isPackage (name : String) : Bool :=
  (name.toList.splitOn '.').all fun part => isWord part && !isReserved (String.ofList part)

end PixelJava.Java
