import CodeEntities.Language

namespace CodeEntities

-- Kinds of nodes that are candidates for an entity. Declarations of a module are
-- looked for through `wrappers` only, so members of types and functions are not
-- taken for declarations of the module.
structure NodeKinds where
  functions : List String := []
  classes : List String := []
  interfaces : List String := []
  typeAliases : List String := []
  bindings : List String := []
  imports : List String := []
  methods : List String := []
  wrappers : List String := []
  deriving Repr, DecidableEq, Inhabited

namespace NodeKinds

def typescript : NodeKinds where
  functions := [
    "function_declaration", "generator_function_declaration", "lexical_declaration",
    "variable_declaration"]
  classes := ["class_declaration", "abstract_class_declaration", "enum_declaration"]
  interfaces := ["interface_declaration"]
  typeAliases := ["type_alias_declaration"]
  bindings := ["lexical_declaration", "variable_declaration"]
  imports := ["import_statement", "lexical_declaration", "variable_declaration"]
  methods := ["method_definition", "method_signature", "abstract_method_signature"]
  wrappers := ["export_statement", "ambient_declaration"]

def python : NodeKinds where
  functions := ["function_definition"]
  classes := ["class_definition"]
  typeAliases := ["type_alias_statement"]
  bindings := ["expression_statement"]
  imports := ["import_statement", "import_from_statement"]
  methods := ["function_definition"]
  wrappers := ["decorated_definition"]

def go : NodeKinds where
  functions := ["function_declaration"]
  classes := ["type_declaration"]
  interfaces := ["type_declaration"]
  typeAliases := ["type_declaration"]
  bindings := ["var_declaration", "const_declaration"]
  imports := ["import_declaration"]
  methods := ["method_declaration"]

def rust : NodeKinds where
  functions := ["function_item"]
  classes := ["struct_item", "enum_item", "union_item", "impl_item"]
  interfaces := ["trait_item"]
  typeAliases := ["type_item"]
  bindings := ["const_item", "static_item"]
  imports := ["use_declaration"]
  methods := ["function_item", "function_signature_item"]
  wrappers := ["mod_item", "declaration_list"]

def java : NodeKinds where
  classes := ["class_declaration", "enum_declaration", "record_declaration"]
  interfaces := ["interface_declaration", "annotation_type_declaration"]
  imports := ["import_declaration"]
  methods := ["method_declaration", "constructor_declaration", "compact_constructor_declaration"]

def c : NodeKinds where
  functions := ["function_definition"]
  classes := ["struct_specifier", "union_specifier", "enum_specifier", "type_definition"]
  typeAliases := ["type_definition"]
  bindings := ["declaration"]
  imports := ["preproc_include"]
  methods := ["function_definition", "field_declaration", "declaration"]
  wrappers := [
    "preproc_ifdef", "preproc_if", "preproc_else", "preproc_elif", "linkage_specification",
    "declaration_list"]

def cpp : NodeKinds where
  functions := ["function_definition"]
  classes := [
    "class_specifier", "struct_specifier", "union_specifier", "enum_specifier", "type_definition"]
  typeAliases := ["type_definition", "alias_declaration"]
  bindings := ["declaration"]
  imports := ["preproc_include", "using_declaration"]
  methods := ["function_definition", "field_declaration", "declaration"]
  wrappers := [
    "preproc_ifdef", "preproc_if", "preproc_else", "preproc_elif", "linkage_specification",
    "declaration_list", "namespace_definition", "template_declaration"]

def csharp : NodeKinds where
  functions := ["local_function_statement"]
  classes := ["class_declaration", "struct_declaration", "record_declaration", "enum_declaration"]
  interfaces := ["interface_declaration"]
  imports := ["using_directive"]
  methods := ["method_declaration", "constructor_declaration"]
  wrappers := [
    "namespace_declaration", "file_scoped_namespace_declaration", "declaration_list",
    "global_statement"]

def kotlin : NodeKinds where
  functions := ["function_declaration"]
  classes := ["class_declaration", "object_declaration"]
  interfaces := ["class_declaration"]
  typeAliases := ["type_alias"]
  bindings := ["property_declaration"]
  imports := ["import", "import_header"]
  methods := ["function_declaration"]
  wrappers := ["import_list"]

def swift : NodeKinds where
  functions := ["function_declaration"]
  classes := ["class_declaration"]
  interfaces := ["protocol_declaration"]
  typeAliases := ["typealias_declaration"]
  bindings := ["property_declaration"]
  imports := ["import_declaration"]
  methods := ["function_declaration", "protocol_function_declaration"]

def dart : NodeKinds where
  functions := ["function_signature"]
  classes := ["class_definition", "enum_declaration", "mixin_declaration"]
  typeAliases := ["type_alias"]
  imports := ["import_or_export"]
  methods := ["method_signature", "declaration"]

def ruby : NodeKinds where
  functions := ["method"]
  classes := ["class", "module"]
  bindings := ["assignment"]
  imports := ["call"]
  methods := ["method", "singleton_method"]

def php : NodeKinds where
  functions := ["function_definition"]
  classes := ["class_declaration", "trait_declaration", "enum_declaration"]
  interfaces := ["interface_declaration"]
  bindings := ["const_declaration"]
  imports := ["namespace_use_declaration"]
  methods := ["method_declaration"]
  wrappers := ["namespace_definition", "compound_statement"]

def bash : NodeKinds where
  functions := ["function_definition"]
  bindings := ["variable_assignment", "declaration_command"]
  imports := ["command"]

def scala : NodeKinds where
  functions := ["function_definition"]
  classes := ["class_definition", "object_definition", "enum_definition"]
  interfaces := ["trait_definition"]
  typeAliases := ["type_definition"]
  bindings := ["val_definition", "var_definition"]
  imports := ["import_declaration"]
  methods := ["function_definition", "function_declaration"]
  wrappers := ["package_clause", "template_body"]

def haskell : NodeKinds where
  functions := ["function"]
  classes := ["data_type", "newtype"]
  interfaces := ["class"]
  typeAliases := ["type_synomym", "type_synonym"]
  bindings := ["bind"]
  imports := ["import"]
  methods := ["signature"]
  wrappers := ["declarations", "imports"]

def elixir : NodeKinds where
  functions := ["call"]
  classes := ["call"]
  interfaces := ["call"]
  imports := ["call"]
  methods := ["call"]

def lua : NodeKinds where
  functions := ["function_declaration"]
  classes := ["function_declaration"]
  bindings := ["variable_declaration", "assignment_statement"]
  imports := ["variable_declaration", "function_call"]

def json : NodeKinds where
  bindings := ["pair"]

def yaml : NodeKinds where
  bindings := ["block_mapping_pair", "flow_pair"]

def toml : NodeKinds where
  bindings := ["pair", "table", "table_array_element"]

def of : Language → NodeKinds
  | .typescript | .tsx | .javascript | .jsx => typescript
  | .python => python
  | .go => go
  | .rust => rust
  | .java => java
  | .c => c
  | .cpp => cpp
  | .csharp => csharp
  | .kotlin => kotlin
  | .swift => swift
  | .dart => dart
  | .ruby => ruby
  | .php => php
  | .bash => bash
  | .scala => scala
  | .haskell => haskell
  | .elixir => elixir
  | .lua => lua
  | .json => json
  | .yaml => yaml
  | .toml => toml

end NodeKinds

end CodeEntities
