import FunctionForge.Config.Basic
import FunctionForge.Document.Load

/-!
# Reading configurations

Turns a marked-up document into a configuration. Every part of it may be left out.
-/

namespace FunctionForge.Config.Decode

open Markup (Place Reading Record)

/-- The greatest number that a version may be written as. -/
def versionLimit : Nat := 255

/-- A version. Whether there is such a version is not asked. -/
def version (place : Place) : Reading Nat := do
  let number ← place.natural
  if number > versionLimit then failure
  return number

/-- A part that may be left out or be left blank. -/
def setting {α : Type} (record : Record Place) (name : String) (read : Place → Reading α) :
    Reading (Option α) :=
  record.defaulted name none (Place.optional read)

/-- Settings. -/
def settings (place : Place) : Reading Settings := do
  let record ← place.record
    ["version", "duplicates", "prefix", "suffix", "imports", "boilerplate"]
  return {
    version := ← setting record "version" version
    duplicates := ← setting record "duplicates" Place.text
    lead := ← setting record "prefix" Place.text
    trail := ← setting record "suffix" Place.text
    imports := ← setting record "imports" (Place.list Place.text)
    boilerplate := ← setting record "boilerplate" Place.text }

/-- The models of a service. -/
def modelBlock (place : Place) : Reading ModelBlock := do
  let record ← place.record
    ["namespace", "targetFolder", "prefix", "suffix", "excludes", "includes", "imports"]
  return {
    rootNamespace := ← setting record "namespace" Place.text
    folder := ← setting record "targetFolder" Place.text
    lead := ← setting record "prefix" Place.text
    trail := ← setting record "suffix" Place.text
    excludes := ← record.defaulted "excludes" [] (Place.list Place.text)
    includes := ← record.defaulted "includes" [] (Place.list Place.text)
    imports := ← setting record "imports" (Place.list Place.text) }

/-- The functions of a service. -/
def functionBlock (place : Place) : Reading FunctionBlock := do
  let record ← place.record
    ["name", "namespace", "targetFolder", "functionsName", "interfaceName", "interfaceNamespace",
      "interfaceTargetFolder", "boilerplate", "imports"]
  return {
    name := ← setting record "name" Place.text
    rootNamespace := ← setting record "namespace" Place.text
    folder := ← setting record "targetFolder" Place.text
    functionsName := ← setting record "functionsName" Place.text
    interfaceName := ← setting record "interfaceName" Place.text
    interfaceNamespace := ← setting record "interfaceNamespace" Place.text
    interfaceFolder := ← setting record "interfaceTargetFolder" Place.text
    boilerplate := ← setting record "boilerplate" Place.text
    imports := ← setting record "imports" (Place.list Place.text) }

/-- A service. -/
def service (place : Place) : Reading Service := do
  let record ← place.record ["apiPath", "config", "model", "function"]
  return {
    apiPath := ← setting record "apiPath" Place.text
    settings := ← record.defaulted "config" .none settings
    model := ← setting record "model" modelBlock
    function := ← setting record "function" functionBlock }

/-- A configuration. -/
def config (place : Place) : Reading Config := do
  let record ← place.record ["config", "services"]
  return {
    settings := ← record.defaulted "config" .none settings
    services := ← record.defaulted "services" [] (Place.list service) }

end FunctionForge.Config.Decode
