import CodeEntities.Extract.Context

namespace CodeEntities

-- Splits `java.util.List` into package and member; `java.util.*` has no member,
-- and a name without dots is both.
def splitQualified (path : String) : String × Option String :=
  match Text.dropSuffix? path ".*" with
  | some package => (package, none)
  | none =>
    match Text.cutLast? path "." with
    | some (package, member) => (package, some member)
    | none => (path, some path)

def qualifiedImport (cx : Context) (n : Node) (path : String) : ImportDecl :=
  let (source, member) := splitQualified path
  let specifier : ImportSpecifier :=
    match member with
    | some name => { localName := name, imported := name, kind := .named }
    | none => { localName := "*", imported := "*", kind := .wholeModule }
  { source, specifiers := [specifier], location := cx.location n }

end CodeEntities
