import CodeEntities.Json.Basic
import CodeEntities.Outline.Summary

namespace CodeEntities

open Json

def Json.constant? {α : Type} (ofName? : String → Option α) (j : Json) : Option α :=
  j.asName?.bind ofName?

namespace Language

def toJson (l : Language) : Json := string l.name

def ofJson? : Json → Option Language := constant? ofName?

end Language

namespace Modifiers

def toJson (s : Modifiers) : Json := Json.ofList (fun m => string m.name) s.members

def ofJson? (j : Json) : Option Modifiers :=
  (asList? (constant? Modifier.ofName?) j).map ofList

end Modifiers

namespace Location

def fieldNames : List String := ["filePath", "startLine", "endLine", "startColumn", "endColumn"]

def toJson (l : Location) : Json := object [
  ("filePath", string l.filePath),
  ("startLine", ofNat l.startLine),
  ("endLine", ofNat l.endLine),
  ("startColumn", ofNat l.startColumn),
  ("endColumn", ofNat l.endColumn)]

def ofJson? (j : Json) : Option Location := do
  let get ← j.record? fieldNames
  return {
    filePath := ← required? get "filePath" asString?
    startLine := ← required? get "startLine" asSize?
    endLine := ← required? get "endLine" asSize?
    startColumn := ← required? get "startColumn" asSize?
    endColumn := ← required? get "endColumn" asSize? }

end Location

namespace Parameter

def fieldNames : List String := ["name", "type", "isOptional", "isRest", "defaultValue"]

def toJson (p : Parameter) : Json := object [
  ("name", string p.name),
  ("type", ofOption string p.type),
  ("isOptional", bool p.isOptional),
  ("isRest", bool p.isRest),
  ("defaultValue", ofOption string p.defaultValue)]

def ofJson? (j : Json) : Option Parameter := do
  let get ← j.record? fieldNames
  return {
    name := ← required? get "name" asString?
    type := ← optional? get "type" asString?
    isOptional := ← required? get "isOptional" asBool?
    isRest := ← required? get "isRest" asBool?
    defaultValue := ← optional? get "defaultValue" asString? }

end Parameter

namespace FunctionDecl

def fieldNames : List String := [
  "name", "params", "returnType", "typeParams", "body", "location", "modifiers", "docComment",
  "signature", "complexity"]

def members (f : FunctionDecl) : List (String × Json) := [
  ("name", string f.name),
  ("params", Json.ofList Parameter.toJson f.params),
  ("returnType", ofOption string f.returnType),
  ("typeParams", Json.ofList string f.typeParams),
  ("body", string f.body),
  ("location", f.location.toJson),
  ("modifiers", f.modifiers.toJson),
  ("docComment", ofOption string f.docComment),
  ("signature", string f.signature),
  ("complexity", ofNat f.complexity)]

def toJson (f : FunctionDecl) : Json := object f.members

def ofFields? (get : String → Option Json) : Option FunctionDecl := do
  return {
    name := ← required? get "name" asString?
    params := ← required? get "params" (asList? Parameter.ofJson?)
    returnType := ← optional? get "returnType" asString?
    typeParams := ← required? get "typeParams" (asList? asString?)
    body := ← required? get "body" asString?
    location := ← required? get "location" Location.ofJson?
    modifiers := ← required? get "modifiers" Modifiers.ofJson?
    docComment := ← optional? get "docComment" asString?
    signature := ← required? get "signature" asString?
    complexity := ← required? get "complexity" asWord? }

def ofJson? (j : Json) : Option FunctionDecl := (j.record? fieldNames).bind ofFields?

end FunctionDecl

namespace MethodDecl

def toJson (m : MethodDecl) : Json := object (m.function.members ++ [
  ("visibility", string m.visibility.name),
  ("isStatic", bool m.isStatic),
  ("isAbstract", bool m.isAbstract),
  ("isGetter", bool m.isGetter),
  ("isSetter", bool m.isSetter)])

def ofJson? : Json → Option MethodDecl
  | object members => do
    let get := fun name => members.lookup name
    return {
      function := ← FunctionDecl.ofFields? get
      visibility := ← required? get "visibility" (constant? Visibility.ofName?)
      isStatic := ← required? get "isStatic" asBool?
      isAbstract := ← required? get "isAbstract" asBool?
      isGetter := ← required? get "isGetter" asBool?
      isSetter := ← required? get "isSetter" asBool? }
  | _ => none

end MethodDecl

namespace PropertyDecl

def fieldNames : List String := [
  "name", "type", "visibility", "isStatic", "isReadonly", "isOptional", "initializer", "location",
  "docComment"]

def toJson (p : PropertyDecl) : Json := object [
  ("name", string p.name),
  ("type", ofOption string p.type),
  ("visibility", string p.visibility.name),
  ("isStatic", bool p.isStatic),
  ("isReadonly", bool p.isReadonly),
  ("isOptional", bool p.isOptional),
  ("initializer", ofOption string p.initializer),
  ("location", p.location.toJson),
  ("docComment", ofOption string p.docComment)]

def ofJson? (j : Json) : Option PropertyDecl := do
  let get ← j.record? fieldNames
  return {
    name := ← required? get "name" asString?
    type := ← optional? get "type" asString?
    visibility := ← required? get "visibility" (constant? Visibility.ofName?)
    isStatic := ← required? get "isStatic" asBool?
    isReadonly := ← required? get "isReadonly" asBool?
    isOptional := ← required? get "isOptional" asBool?
    initializer := ← optional? get "initializer" asString?
    location := ← required? get "location" Location.ofJson?
    docComment := ← optional? get "docComment" asString? }

end PropertyDecl

namespace ClassDecl

def fieldNames : List String := [
  "name", "kind", "typeParams", "extends", "implements", "methods", "properties", "constructor",
  "location", "modifiers", "docComment", "isAbstract"]

def toJson (c : ClassDecl) : Json := object [
  ("name", string c.name),
  ("kind", string c.kind.name),
  ("typeParams", Json.ofList string c.typeParams),
  ("extends", ofOption string c.superclass),
  ("implements", Json.ofList string c.implements),
  ("methods", Json.ofList MethodDecl.toJson c.methods),
  ("properties", Json.ofList PropertyDecl.toJson c.properties),
  ("constructor", ofOption MethodDecl.toJson c.constructor),
  ("location", c.location.toJson),
  ("modifiers", c.modifiers.toJson),
  ("docComment", ofOption string c.docComment),
  ("isAbstract", bool c.isAbstract)]

def ofJson? (j : Json) : Option ClassDecl := do
  let get ← j.record? fieldNames
  return {
    name := ← required? get "name" asString?
    kind := ← required? get "kind" (constant? ClassKind.ofName?)
    typeParams := ← required? get "typeParams" (asList? asString?)
    superclass := ← optional? get "extends" asString?
    implements := ← required? get "implements" (asList? asString?)
    methods := ← required? get "methods" (asList? MethodDecl.ofJson?)
    properties := ← required? get "properties" (asList? PropertyDecl.ofJson?)
    constructor := ← optional? get "constructor" MethodDecl.ofJson?
    location := ← required? get "location" Location.ofJson?
    modifiers := ← required? get "modifiers" Modifiers.ofJson?
    docComment := ← optional? get "docComment" asString?
    isAbstract := ← required? get "isAbstract" asBool? }

end ClassDecl

namespace InterfaceDecl

def fieldNames : List String := [
  "name", "typeParams", "extends", "properties", "methods", "location", "modifiers", "docComment"]

def toJson (i : InterfaceDecl) : Json := object [
  ("name", string i.name),
  ("typeParams", Json.ofList string i.typeParams),
  ("extends", Json.ofList string i.parents),
  ("properties", Json.ofList PropertyDecl.toJson i.properties),
  ("methods", Json.ofList MethodDecl.toJson i.methods),
  ("location", i.location.toJson),
  ("modifiers", i.modifiers.toJson),
  ("docComment", ofOption string i.docComment)]

def ofJson? (j : Json) : Option InterfaceDecl := do
  let get ← j.record? fieldNames
  return {
    name := ← required? get "name" asString?
    typeParams := ← required? get "typeParams" (asList? asString?)
    parents := ← required? get "extends" (asList? asString?)
    properties := ← required? get "properties" (asList? PropertyDecl.ofJson?)
    methods := ← required? get "methods" (asList? MethodDecl.ofJson?)
    location := ← required? get "location" Location.ofJson?
    modifiers := ← required? get "modifiers" Modifiers.ofJson?
    docComment := ← optional? get "docComment" asString? }

end InterfaceDecl

namespace TypeAliasDecl

def fieldNames : List String := [
  "name", "typeParams", "aliasedType", "location", "modifiers", "docComment"]

def toJson (t : TypeAliasDecl) : Json := object [
  ("name", string t.name),
  ("typeParams", Json.ofList string t.typeParams),
  ("aliasedType", string t.aliasedType),
  ("location", t.location.toJson),
  ("modifiers", t.modifiers.toJson),
  ("docComment", ofOption string t.docComment)]

def ofJson? (j : Json) : Option TypeAliasDecl := do
  let get ← j.record? fieldNames
  return {
    name := ← required? get "name" asString?
    typeParams := ← required? get "typeParams" (asList? asString?)
    aliasedType := ← required? get "aliasedType" asString?
    location := ← required? get "location" Location.ofJson?
    modifiers := ← required? get "modifiers" Modifiers.ofJson?
    docComment := ← optional? get "docComment" asString? }

end TypeAliasDecl

namespace VariableDecl

def fieldNames : List String := [
  "name", "kind", "type", "initializer", "location", "modifiers", "docComment"]

def toJson (v : VariableDecl) : Json := object [
  ("name", string v.name),
  ("kind", string v.kind.name),
  ("type", ofOption string v.type),
  ("initializer", ofOption string v.initializer),
  ("location", v.location.toJson),
  ("modifiers", v.modifiers.toJson),
  ("docComment", ofOption string v.docComment)]

def ofJson? (j : Json) : Option VariableDecl := do
  let get ← j.record? fieldNames
  return {
    name := ← required? get "name" asString?
    kind := ← required? get "kind" (constant? VariableKind.ofName?)
    type := ← optional? get "type" asString?
    initializer := ← optional? get "initializer" asString?
    location := ← required? get "location" Location.ofJson?
    modifiers := ← required? get "modifiers" Modifiers.ofJson?
    docComment := ← optional? get "docComment" asString? }

end VariableDecl

namespace ImportSpecifier

def fieldNames : List String := ["local", "imported", "type"]

def toJson (s : ImportSpecifier) : Json := object [
  ("local", string s.localName),
  ("imported", string s.imported),
  ("type", string s.kind.name)]

def ofJson? (j : Json) : Option ImportSpecifier := do
  let get ← j.record? fieldNames
  return {
    localName := ← required? get "local" asString?
    imported := ← required? get "imported" asString?
    kind := ← required? get "type" (constant? SpecifierKind.ofName?) }

end ImportSpecifier

namespace ImportDecl

def fieldNames : List String := ["source", "specifiers", "isTypeOnly", "isSideEffect", "location"]

def toJson (i : ImportDecl) : Json := object [
  ("source", string i.source),
  ("specifiers", Json.ofList ImportSpecifier.toJson i.specifiers),
  ("isTypeOnly", bool i.isTypeOnly),
  ("isSideEffect", bool i.isSideEffect),
  ("location", i.location.toJson)]

def ofJson? (j : Json) : Option ImportDecl := do
  let get ← j.record? fieldNames
  return {
    source := ← required? get "source" asString?
    specifiers := ← required? get "specifiers" (asList? ImportSpecifier.ofJson?)
    isTypeOnly := ← required? get "isTypeOnly" asBool?
    isSideEffect := ← required? get "isSideEffect" asBool?
    location := ← required? get "location" Location.ofJson? }

end ImportDecl

namespace ExportDecl

def fieldNames : List String := ["name", "localName", "type", "source", "isTypeOnly", "location"]

def toJson (e : ExportDecl) : Json := object [
  ("name", string e.name),
  ("localName", ofOption string e.localName),
  ("type", string e.kind.name),
  ("source", ofOption string e.source),
  ("isTypeOnly", bool e.isTypeOnly),
  ("location", e.location.toJson)]

def ofJson? (j : Json) : Option ExportDecl := do
  let get ← j.record? fieldNames
  return {
    name := ← required? get "name" asString?
    localName := ← optional? get "localName" asString?
    kind := ← required? get "type" (constant? ExportKind.ofName?)
    source := ← optional? get "source" asString?
    isTypeOnly := ← required? get "isTypeOnly" asBool?
    location := ← required? get "location" Location.ofJson? }

end ExportDecl

namespace ParseError

def fieldNames : List String := ["message", "location", "severity"]

def toJson (e : ParseError) : Json := object [
  ("message", string e.message),
  ("location", e.location.toJson),
  ("severity", string e.severity.name)]

def ofJson? (j : Json) : Option ParseError := do
  let get ← j.record? fieldNames
  return {
    message := ← required? get "message" asString?
    location := ← required? get "location" Location.ofJson?
    severity := ← required? get "severity" (constant? Severity.ofName?) }

end ParseError

namespace Outline

def fieldNames : List String := [
  "filePath", "language", "functions", "classes", "interfaces", "typeAliases", "variables",
  "imports", "exports", "errors"]

def toJson (o : Outline) : Json := object [
  ("filePath", string o.filePath),
  ("language", o.language.toJson),
  ("functions", Json.ofList FunctionDecl.toJson o.functions),
  ("classes", Json.ofList ClassDecl.toJson o.classes),
  ("interfaces", Json.ofList InterfaceDecl.toJson o.interfaces),
  ("typeAliases", Json.ofList TypeAliasDecl.toJson o.typeAliases),
  ("variables", Json.ofList VariableDecl.toJson o.bindings),
  ("imports", Json.ofList ImportDecl.toJson o.imports),
  ("exports", Json.ofList ExportDecl.toJson o.exports),
  ("errors", Json.ofList ParseError.toJson o.errors)]

def ofJson? (j : Json) : Option Outline := do
  let get ← j.record? fieldNames
  return {
    filePath := ← required? get "filePath" asString?
    language := ← required? get "language" Language.ofJson?
    functions := ← required? get "functions" (asList? FunctionDecl.ofJson?)
    classes := ← required? get "classes" (asList? ClassDecl.ofJson?)
    interfaces := ← required? get "interfaces" (asList? InterfaceDecl.ofJson?)
    typeAliases := ← required? get "typeAliases" (asList? TypeAliasDecl.ofJson?)
    bindings := ← required? get "variables" (asList? VariableDecl.ofJson?)
    imports := ← required? get "imports" (asList? ImportDecl.ofJson?)
    exports := ← required? get "exports" (asList? ExportDecl.ofJson?)
    errors := ← required? get "errors" (asList? ParseError.ofJson?) }

end Outline

namespace EntitySummary

def fieldNames : List String := [
  "name", "kind", "filePath", "startLine", "endLine", "signature", "docComment", "isExported"]

def toJson (s : EntitySummary) : Json := object [
  ("name", string s.name),
  ("kind", string s.kind.name),
  ("filePath", string s.filePath),
  ("startLine", ofNat s.startLine),
  ("endLine", ofNat s.endLine),
  ("signature", ofOption string s.signature),
  ("docComment", ofOption string s.docComment),
  ("isExported", bool s.isExported)]

def ofJson? (j : Json) : Option EntitySummary := do
  let get ← j.record? fieldNames
  return {
    name := ← required? get "name" asString?
    kind := ← required? get "kind" (constant? EntityKind.ofName?)
    filePath := ← required? get "filePath" asString?
    startLine := ← required? get "startLine" asSize?
    endLine := ← required? get "endLine" asSize?
    signature := ← optional? get "signature" asString?
    docComment := ← optional? get "docComment" asString?
    isExported := ← required? get "isExported" asBool? }

end EntitySummary

end CodeEntities
