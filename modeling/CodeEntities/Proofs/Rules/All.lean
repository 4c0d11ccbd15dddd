import CodeEntities.Proofs.Rules.Bash
import CodeEntities.Proofs.Rules.CFamily
import CodeEntities.Proofs.Rules.CSharp
import CodeEntities.Proofs.Rules.Data
import CodeEntities.Proofs.Rules.Elixir
import CodeEntities.Proofs.Rules.Go
import CodeEntities.Proofs.Rules.Haskell
import CodeEntities.Proofs.Rules.Java
import CodeEntities.Proofs.Rules.Kotlin
import CodeEntities.Proofs.Rules.Lua
import CodeEntities.Proofs.Rules.Php
import CodeEntities.Proofs.Rules.Python
import CodeEntities.Proofs.Rules.Ruby
import CodeEntities.Proofs.Rules.Rust
import CodeEntities.Proofs.Rules.Scala
import CodeEntities.Proofs.Rules.Swift
import CodeEntities.Proofs.Rules.TypeScript
import CodeEntities.Rules.All

namespace CodeEntities

namespace Language

-- Elixir leaves the doc comment of a module or protocol as it is; no other language does.
def ownDocOf : Language → Options → Option String → Option String
  | .elixir, _, found => found
  | _, o, found => o.docOf found

def classUnder (l : Language) (o : Options) (c : ClassDecl) : ClassDecl :=
  { c.membersUnder o with docComment := l.ownDocOf o c.docComment }

def interfaceUnder (l : Language) (o : Options) (i : InterfaceDecl) : InterfaceDecl :=
  { i.membersUnder o with docComment := l.ownDocOf o i.docComment }

end Language

namespace Rules

theorem of_obeys (l : Language) : (of l).Obeys l.classUnder l.interfaceUnder := by
  cases l with
  | typescript | tsx | javascript | jsx => exact TypeScript.obeys
  | python => exact Python.obeys
  | go => exact Go.obeys
  | rust => exact Rust.obeys
  | java => exact Java.obeys
  | c | cpp => exact CFamily.obeys _
  | csharp => exact CSharp.obeys
  | kotlin => exact Kotlin.obeys
  | swift => exact Swift.obeys
  | dart => exact plain_obeys .dart .isPublic
  | ruby => exact Ruby.obeys
  | php => exact Php.obeys
  | bash => exact Bash.obeys
  | scala => exact Scala.obeys
  | haskell => exact Haskell.obeys
  | elixir => exact Elixir.obeys
  | lua => exact Lua.obeys
  | json | yaml | toml => exact Data.obeys _

def Sites.of : Language → Sites
  | .go => Go.sites
  | .c => CFamily.sites .c
  | .cpp => CFamily.sites .cpp
  | .ruby => Ruby.sites
  | .elixir => Elixir.sites
  | .lua => Lua.sites
  | l => .module (Rules.of l).kinds

theorem of_locates (l : Language) : (of l).Locates (.of l) := by
  cases l with
  | typescript | tsx | javascript | jsx => exact TypeScript.locates
  | python => exact Python.locates
  | go => exact Go.locates
  | rust => exact Rust.locates
  | java => exact Java.locates
  | c | cpp => exact CFamily.locates _
  | csharp => exact CSharp.locates
  | kotlin => exact Kotlin.locates
  | swift => exact Swift.locates
  | dart => exact plain_locates .dart .isPublic
  | ruby => exact Ruby.locates
  | php => exact Php.locates
  | bash => exact Bash.locates
  | scala => exact Scala.locates
  | haskell => exact Haskell.locates
  | elixir => exact Elixir.locates
  | lua => exact Lua.locates
  | json | yaml | toml => exact Data.locates _

theorem of_separates (l : Language) : (of l).Separates (.of l) := by
  cases l with
  | go => exact Go.separates
  | c | cpp => exact CFamily.separates (by decide) (by decide)
  | ruby => exact Ruby.separates
  | elixir => exact Elixir.separates
  | lua => exact Lua.separates
  | typescript | tsx | javascript | jsx | python | rust | java | csharp | kotlin | swift | dart |
    php | bash | scala | haskell | json | yaml | toml =>
    exact module_separates (by decide) (by decide)

theorem of_orders (l : Language) : (of l).Orders := by
  cases l with
  | typescript | tsx | javascript | jsx => exact TypeScript.orders
  | python => exact Python.orders
  | go => exact Go.orders
  | rust => exact Rust.orders
  | java => exact Java.orders
  | c | cpp => exact CFamily.orders _
  | csharp => exact CSharp.orders
  | kotlin => exact Kotlin.orders
  | swift => exact Swift.orders
  | dart => exact plain_orders .dart .isPublic
  | ruby => exact Ruby.orders
  | php => exact Php.orders
  | bash => exact Bash.orders
  | scala => exact Scala.orders
  | haskell => exact Haskell.orders
  | elixir => exact Elixir.orders
  | lua => exact Lua.orders
  | json | yaml | toml => exact Data.orders _

-- The languages in which the classes that only methods apart from their type tell of are put
-- behind the others.
def appending : List Language := [.rust, .go, .c, .cpp]

theorem of_ordersClasses {l : Language} (alone : l ∉ appending) : (of l).OrdersClasses := by
  cases l with
  | typescript | tsx | javascript | jsx => exact TypeScript.classes_inOrder
  | python => exact Python.classes_inOrder
  | java => exact Java.classes_inOrder
  | csharp => exact CSharp.classes_inOrder
  | kotlin => exact Kotlin.classes_inOrder
  | swift => exact Swift.classes_inOrder
  | dart => exact plain_ordersClasses .dart .isPublic
  | ruby => exact Ruby.classes_inOrder
  | php => exact Php.classes_inOrder
  | bash => exact Bash.classes_inOrder
  | scala => exact Scala.classes_inOrder
  | haskell => exact Haskell.classes_inOrder
  | elixir => exact Elixir.classes_inOrder
  | lua => exact Lua.classes_inOrder
  | json | yaml | toml => exact Data.classes_inOrder _
  | rust | go | c | cpp => exact absurd (by decide) alone

theorem of_appendsExtensions {l : Language} (appends : l ∈ appending) :
    (of l).AppendsExtensions := by
  cases l with
  | rust => exact Rust.classes_run
  | go => exact Go.classes_run
  | c | cpp => exact CFamily.classes_run _
  | _ => exact absurd appends (by decide)

def BareNames.of : Language → BareNames
  | .typescript | .tsx | .javascript | .jsx => TypeScript.bareNames
  | .python => Python.bareNames
  | .go => Go.bareNames
  | .rust => Rust.bareNames
  | .c => CFamily.bareNames .c
  | .cpp => CFamily.bareNames .cpp
  | .kotlin => Kotlin.bareNames
  | .ruby => Ruby.bareNames
  | .bash => Bash.bareNames
  | .scala => Scala.bareNames
  | .elixir => Elixir.bareNames
  | .lua => Lua.bareNames
  | .json => Data.bareNames .json
  | .yaml => Data.bareNames .yaml
  | .toml => Data.bareNames .toml
  | .java | .csharp | .swift | .dart | .php | .haskell => {}

theorem of_names (l : Language) : (of l).Names (.of l) := by
  cases l with
  | typescript | tsx | javascript | jsx => exact TypeScript.names
  | python => exact Python.names
  | go => exact Go.names
  | rust => exact Rust.names
  | java => exact Java.names
  | c | cpp => exact CFamily.names _
  | csharp => exact CSharp.names
  | kotlin => exact Kotlin.names
  | swift => exact Swift.names
  | dart => exact plain_names .dart .isPublic
  | ruby => exact Ruby.names
  | php => exact Php.names
  | bash => exact Bash.names
  | scala => exact Scala.names
  | haskell => exact Haskell.names
  | elixir => exact Elixir.names
  | lua => exact Lua.names
  | json | yaml | toml => exact Data.names _

def TypeSites.of : Language → Option (Context → Node → TypeSites)
  | .go => some Go.typeSites
  | .kotlin => some Kotlin.typeSites
  | .c => some (CFamily.typeSites .c)
  | .cpp => some (CFamily.typeSites .cpp)
  | .elixir => some Elixir.typeSites
  | _ => none

theorem of_types (l : Language) (cx : Context) (root : Node) : ∀ sites ∈ TypeSites.of l,
    (sites cx root).Declares cx ((of l).classes cx root) ((of l).interfaces cx root)
      ((of l).typeAliases cx root) := by
  intro sites known
  cases l with
  | go => cases known; exact Go.types_declared cx root
  | kotlin => cases known; exact Kotlin.types_declared cx root
  | c => cases known; exact CFamily.types_declared (by decide) cx root
  | cpp => cases known; exact CFamily.types_declared (by decide) cx root
  | elixir => cases known; exact Elixir.types_declared cx root
  | _ => cases known

def BindingSites.of : Language → Option (Context → Node → BindingSites)
  | .typescript | .tsx | .javascript | .jsx => some TypeScript.bindingSites
  | .lua => some Lua.bindingSites
  | _ => none

theorem of_bindings (l : Language) (cx : Context) (root : Node) : ∀ sites ∈ BindingSites.of l,
    (sites cx root).Declares cx ((of l).functions cx root) ((of l).bindings cx root)
      ((of l).imports cx root) := by
  intro sites known
  cases l with
  | typescript | tsx | javascript | jsx => cases known; exact TypeScript.bindings_declared cx root
  | lua => cases known; exact Lua.bindings_declared cx root
  | _ => cases known

end Rules

end CodeEntities
