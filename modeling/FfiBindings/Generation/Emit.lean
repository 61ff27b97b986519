import FfiBindings.Binding.Text
import FfiBindings.Index.Text
import FfiBindings.Template.Project

set_option autoImplicit false

namespace FfiBindings

structure Emission where
  layout : Layout
  aliases : TypeAliases
  templatesDir : Option Path

namespace Emission

def bindingText (emission : Emission) (bindings : BindingModule) : Run String := do
  let library := emission.layout.libraryPath bindings.name
  let functions := bindings.functions emission.aliases
  match ← Template.ownTemplate? emission.templatesDir Template.bindingTemplate with
  | some source =>
    Template.rendered (Template.bindingContext bindings library functions) source
  | none => return FfiBindings.bindingText bindings.source library functions

def wroteModuleRecord (target : Path) (count : Nat) : Log.Record :=
  { level := .debug, component := "emitter", message := s!"Wrote {target} ({count} functions)" }

def writeModule (emission : Emission) (bindings : BindingModule) : Run Path := do
  let target := emission.layout.modulePath bindings.name
  Run.makeDirectories target.parent
  Run.write target (← emission.bindingText bindings)
  Run.log (wroteModuleRecord target bindings.signatures.length)
  return target

def indexText (emission : Emission) (typeFilter : Bool) (index : ExportIndex) : Run String := do
  Run.logAll index.records
  match ← Template.ownTemplate? emission.templatesDir Template.indexTemplate with
  | some source => Template.rendered (Template.indexContext typeFilter index) source
  | none => return FfiBindings.indexText index

def wroteIndexRecord (target : Path) (count : Nat) : Log.Record :=
  { level := .debug, component := "index", message := s!"Wrote {target} with {count} modules" }

def writeIndex (emission : Emission) (typeFilter : Bool) (index : ExportIndex) : Run Path := do
  let target := emission.layout.indexFile
  let text ← emission.indexText typeFilter index
  if ← Run.pathExists target then
    Run.unlink target
  Run.makeDirectories target.parent
  Run.write target text
  Run.log (wroteIndexRecord target index.size)
  return target

end Emission

end FfiBindings
