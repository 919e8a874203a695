import Stencil.Value.Basic

/-!
# Scopes

The context of a rendering binds names: the fields of an object. Binding a name in a context that
is not an object replaces it by an object that binds just that name.

## Main definitions

* `Value.bindings`: what a context binds.
* `Value.bindAll`, `Value.bindMissing`: a context with more names bound, with and without
  overwriting.
-/

namespace Stencil.Value

/-- What a context binds. Only objects bind names. -/
def bindings : Value → Table Value
  | object fields => fields
  | null | bool _ | number _ | string _ | array _ => []

/-- The context with the names of `pairs` bound, each to its last value. -/
def bindAll (context : Value) (pairs : List (String × Value)) : Value :=
  .object (Table.extend context.bindings pairs)

/-- The context with those names of `pairs` bound that it does not bind already, each to its first
value. -/
def bindMissing (context : Value) (pairs : List (String × Value)) : Value :=
  .object (pairs.foldl (fun fields pair => Table.insertNew fields pair.1 pair.2) context.bindings)

end Stencil.Value
