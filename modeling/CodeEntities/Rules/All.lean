import CodeEntities.Rules.Bash
import CodeEntities.Rules.CFamily
import CodeEntities.Rules.CSharp
import CodeEntities.Rules.Data
import CodeEntities.Rules.Elixir
import CodeEntities.Rules.Go
import CodeEntities.Rules.Haskell
import CodeEntities.Rules.Java
import CodeEntities.Rules.Kotlin
import CodeEntities.Rules.Lua
import CodeEntities.Rules.Php
import CodeEntities.Rules.Python
import CodeEntities.Rules.Ruby
import CodeEntities.Rules.Rust
import CodeEntities.Rules.Scala
import CodeEntities.Rules.Swift
import CodeEntities.Rules.TypeScript

namespace CodeEntities.Rules

def of : Language → Rules
  | .typescript | .tsx | .javascript | .jsx => TypeScript.rules
  | .python => Python.rules
  | .go => Go.rules
  | .rust => Rust.rules
  | .java => Java.rules
  | .c => CFamily.rules .c
  | .cpp => CFamily.rules .cpp
  | .csharp => CSharp.rules
  | .kotlin => Kotlin.rules
  | .swift => Swift.rules
  | .dart => { kinds := .dart }
  | .ruby => Ruby.rules
  | .php => Php.rules
  | .bash => Bash.rules
  | .scala => Scala.rules
  | .haskell => Haskell.rules
  | .elixir => Elixir.rules
  | .lua => Lua.rules
  | .json => Data.rules .json
  | .yaml => Data.rules .yaml
  | .toml => Data.rules .toml

end CodeEntities.Rules
