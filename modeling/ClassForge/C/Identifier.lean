import ClassForge.C.Error

/-!
# C identifiers

A name that generated code may declare: ASCII letters, digits and underscores, with no digit in
front. No keyword is excluded.
-/

namespace ClassForge.C

/-- Whether a character may start an identifier. -/
def isNameStart (c : Char) : Bool :=
  c == '_' || c.isAlpha

/-- Whether a character may stand in an identifier behind the first. -/
def isNameChar (c : Char) : Bool :=
  c == '_' || c.isAlphanum

/-- Whether a list of characters spells a C identifier. -/
def isIdentifierChars : List Char → Bool
  | [] => false
  | c :: cs => isNameStart c && cs.all isNameChar

def isIdentifier (name : String) : Bool :=
  isIdentifierChars name.toList

/-- Refuses a name that is not a C identifier. -/
def checkName (role : NameRole) (name : String) : Except TypeError Unit :=
  if isIdentifier name then .ok () else .error (.badName role name)

end ClassForge.C
