/-!
# Faults in C types and declarations

Why a type, a declaration, a signature or a struct was refused. A fault is named by its cause and
holds what its message needs; the wording stands in `TypeError.message` alone.
-/

namespace ClassForge.C

/-- What a name was meant to name. -/
inductive NameRole where
  /-- A field, a parameter or a global. -/
  | variable
  | function
  | structTag
  | typedef
  /-- The preprocessor symbol that counts the elements of an array. -/
  | arrayLength
deriving Repr, DecidableEq

def NameRole.text : NameRole → String
  | .variable => "identifier"
  | .function => "function name"
  | .structTag => "struct name"
  | .typedef => "typedef name"
  | .arrayLength => "array length symbol"

/-- Why a type, a declaration, a signature or a struct was refused. -/
inductive TypeError where
  | badName (role : NameRole) (name : String)
  | unknownPrimitive (text : String)
  | unknownQualifier (text : String)
  /-- A list of qualifiers holds both storage classes. -/
  | twoStorageClasses
  /-- A declaration would get both storage classes. -/
  | variableStorageClash (name : String)
  /-- A function would get both storage classes. -/
  | functionStorageClash (name : String)
  /-- A function would be `const` or `volatile`. -/
  | functionTypeQualifier (name : String)
  | pointerDepthZero
  | pointerToArray
  /-- A declaration adds a pointer level to an array. -/
  | variablePointerToArray (name : String)
  | arrayOfVoid
  | arrayOfArrays
  | arrayLengthZero
  | arrayLengthTooLarge (text : String)
  | typedefShadowsPrimitive (name : String)
  | unknownStruct (tag : String)
  | unknownType (text : String)
  | emptyType
  | unbalancedBracket (text : String)
  | tooManyPointers (text : String)
  /-- A field, parameter or global has type `void`; `place` says which of them. -/
  | voidVariable (place name : String)
  /-- A field, parameter or global has a storage class. -/
  | storageOnVariable (place name : String)
  | repeatedParameter (function parameter : String)
  | storageOnReturn (function : String)
  /-- An instance method does not take a pointer to its object first. -/
  | methodWithoutSelf (method : String)
  /-- A field name is taken in the struct or in one that it extends. -/
  | duplicateField (struct field declaredIn : String)
deriving Repr, DecidableEq

/-- What follows the word that a fault's message opens with. -/
def TypeError.reason : TypeError → String
  | .badName role name => s!"{role.text} `{name}` is not a valid C identifier"
  | .unknownPrimitive text => s!"unknown primitive type `{text}`"
  | .unknownQualifier text => s!"unknown qualifier `{text}`"
  | .twoStorageClasses => "qualifiers `static` and `extern` are mutually exclusive"
  | .variableStorageClash name =>
    s!"`{name}`: qualifiers `static` and `extern` are mutually exclusive"
  | .functionStorageClash name =>
    s!"function `{name}`: `static` and `extern` are mutually exclusive"
  | .functionTypeQualifier name => s!"function `{name}` can only take storage qualifiers"
  | .pointerDepthZero => "pointer depth must be at least 1"
  | .pointerToArray => "pointers to arrays are not supported"
  | .variablePointerToArray name => s!"`{name}`: pointers to arrays are not supported"
  | .arrayOfVoid => "arrays of `void` are not allowed"
  | .arrayOfArrays => "multi-dimensional arrays are not supported"
  | .arrayLengthZero => "array length must be non-zero"
  | .arrayLengthTooLarge text =>
    s!"bad array length `{text}`: number too large to fit in target type"
  | .typedefShadowsPrimitive name => s!"typedef `{name}` shadows a primitive type"
  | .unknownStruct tag => s!"unknown struct `{tag}`"
  | .unknownType text => s!"unknown type `{text}`"
  | .emptyType => "empty type"
  | .unbalancedBracket text => s!"unbalanced `]` in type `{text}`"
  | .tooManyPointers text => s!"too many pointer levels in `{text}`"
  | .voidVariable place name => s!"{place} `{name}` cannot have type `void`"
  | .storageOnVariable place name => s!"{place} `{name}` cannot have a storage qualifier"
  | .repeatedParameter function parameter =>
    s!"function `{function}` declares parameter `{parameter}` twice"
  | .storageOnReturn function =>
    s!"return type of `{function}` cannot carry a storage qualifier"
  | .methodWithoutSelf method =>
    s!"instance method `{method}` must take a self pointer as its first parameter"
  | .duplicateField struct field declaredIn =>
    s!"duplicate field `{field}` in struct `{struct}` (already declared in `{declaredIn}`)"

/-- The text of a fault. All but a repeated field are reported as an invalid type. -/
def TypeError.message : TypeError → String
  | .duplicateField struct field declaredIn =>
    TypeError.reason (.duplicateField struct field declaredIn)
  | e => s!"invalid type: {e.reason}"

end ClassForge.C
