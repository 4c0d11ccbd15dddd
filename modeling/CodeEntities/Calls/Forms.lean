import CodeEntities.Language

namespace CodeEntities

structure CallForms where
  -- Kinds of call sites.
  calls : List String := []
  -- Kinds that build an object: `new X()` and struct or composite literals.
  constructors : List String := []
  -- Kinds of named definitions; each is the caller of the calls in it.
  functions : List String := []
  -- Kinds of anonymous functions. One that is bound to a name is a definition of
  -- that name; calls in any other belong to the definition around it.
  lambdas : List String := []
  -- Kinds of class-like containers; a definition in one is named after both.
  classes : List String := []
  -- Kinds that wait for the call in them.
  awaits : List String := []
  -- Whether a call of a capitalized name builds an object.
  capitalizedConstructors : Bool := false
  -- Whether definitions and control flow are calls themselves.
  macroCalls : Bool := false
  deriving Repr, DecidableEq, Inhabited

namespace CallForms

def isEmpty (f : CallForms) : Bool := f.calls.isEmpty && f.constructors.isEmpty

def typescript : CallForms where
  calls := ["call_expression"]
  constructors := ["new_expression"]
  functions := [
    "function_declaration", "generator_function_declaration", "method_definition",
    "method_signature"]
  lambdas := ["arrow_function", "function_expression", "function", "generator_function"]
  classes := ["class_declaration", "abstract_class_declaration", "class"]
  awaits := ["await_expression"]

def python : CallForms where
  calls := ["call"]
  functions := ["function_definition"]
  lambdas := ["lambda"]
  classes := ["class_definition"]
  awaits := ["await"]
  capitalizedConstructors := true

def go : CallForms where
  calls := ["call_expression"]
  constructors := ["composite_literal"]
  functions := ["function_declaration", "method_declaration"]
  lambdas := ["func_literal"]

def rust : CallForms where
  calls := ["call_expression", "macro_invocation"]
  constructors := ["struct_expression"]
  functions := ["function_item", "function_signature_item"]
  lambdas := ["closure_expression"]
  classes := ["impl_item", "trait_item"]
  awaits := ["await_expression"]

def java : CallForms where
  calls := ["method_invocation"]
  constructors := ["object_creation_expression"]
  functions := ["method_declaration", "constructor_declaration", "compact_constructor_declaration"]
  lambdas := ["lambda_expression"]
  classes := [
    "class_declaration", "interface_declaration", "enum_declaration", "record_declaration"]

def cFamily : CallForms where
  calls := ["call_expression"]
  constructors := ["new_expression"]
  functions := ["function_definition"]
  lambdas := ["lambda_expression"]
  classes := ["class_specifier", "struct_specifier"]
  awaits := ["co_await_expression"]

def csharp : CallForms where
  calls := ["invocation_expression"]
  constructors := ["object_creation_expression"]
  functions := [
    "method_declaration", "constructor_declaration", "local_function_statement",
    "operator_declaration"]
  lambdas := ["lambda_expression", "anonymous_method_expression"]
  classes := [
    "class_declaration", "struct_declaration", "interface_declaration", "record_declaration"]
  awaits := ["await_expression"]

def kotlin : CallForms where
  calls := ["call_expression"]
  functions := ["function_declaration", "secondary_constructor"]
  lambdas := ["lambda_literal", "anonymous_function"]
  classes := ["class_declaration", "object_declaration", "companion_object"]
  capitalizedConstructors := true

def swift : CallForms where
  calls := ["call_expression"]
  functions := ["function_declaration", "init_declaration", "protocol_function_declaration"]
  lambdas := ["lambda_literal"]
  classes := ["class_declaration", "protocol_declaration"]
  awaits := ["await_expression"]
  capitalizedConstructors := true

def ruby : CallForms where
  calls := ["call"]
  functions := ["method", "singleton_method"]
  lambdas := ["lambda", "block", "do_block"]
  classes := ["class", "module", "singleton_class"]

def php : CallForms where
  calls := [
    "function_call_expression", "member_call_expression", "nullsafe_member_call_expression",
    "scoped_call_expression"]
  constructors := ["object_creation_expression"]
  functions := ["function_definition", "method_declaration"]
  lambdas := ["anonymous_function", "arrow_function"]
  classes := [
    "class_declaration", "interface_declaration", "trait_declaration", "enum_declaration"]

def bash : CallForms where
  calls := ["command"]
  functions := ["function_definition"]

def scala : CallForms where
  calls := ["call_expression"]
  constructors := ["instance_expression"]
  functions := ["function_definition", "function_declaration"]
  lambdas := ["lambda_expression"]
  classes := ["class_definition", "object_definition", "trait_definition", "enum_definition"]

def haskell : CallForms where
  calls := ["apply"]
  functions := ["function", "bind"]
  lambdas := ["lambda"]
  classes := ["instance", "class"]

def elixir : CallForms where
  calls := ["call"]
  lambdas := ["anonymous_function"]
  macroCalls := true

def lua : CallForms where
  calls := ["function_call"]
  functions := ["function_declaration"]
  lambdas := ["function_definition"]

def union : CallForms where
  calls := [
    "call_expression", "call", "method_invocation", "invocation_expression",
    "function_call_expression", "member_call_expression", "scoped_call_expression",
    "function_call"]
  constructors := ["new_expression", "object_creation_expression", "instance_expression"]
  functions := [
    "function_declaration", "function_definition", "function_item", "method_definition",
    "method_declaration", "constructor_declaration", "method", "singleton_method"]
  lambdas := ["arrow_function", "function_expression", "lambda_expression", "func_literal"]
  classes := [
    "class_declaration", "class_definition", "class_specifier", "struct_specifier", "impl_item",
    "class"]
  awaits := ["await_expression", "await"]

def of : Language → CallForms
  | .typescript | .tsx | .javascript | .jsx => typescript
  | .python => python
  | .go => go
  | .rust => rust
  | .java => java
  | .c | .cpp => cFamily
  | .csharp => csharp
  | .kotlin => kotlin
  | .swift => swift
  | .ruby => ruby
  | .php => php
  | .bash => bash
  | .scala => scala
  | .haskell => haskell
  | .elixir => elixir
  | .lua => lua
  | .dart | .json | .yaml | .toml => {}

def ofPath (path : String) : CallForms := ((Language.ofPath? path).map of).getD union

end CallForms

end CodeEntities
