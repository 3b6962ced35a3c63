import PaneEngine.Json.Basic
import PaneEngine.Proofs.Dict

/-!
# Values at paths of keys

A path of keys leads through objects to a value.  An exchange of the value there
is seen on the way to it and behind it, but on no path that parts from it before.

## Main definitions

* `Json.at?` — the value at a path;
* `Json.replaceAt` — the document with another value at a path.

## Main results

* `at?_append` — a path is followed step by step;
* `at?_replaceAt_append` — what is seen on the way to an exchanged value;
* `at?_replaceAt_of_apart` — what is seen on other paths.
-/

namespace PaneEngine.Json

/-- The value at a path of keys. -/
def at? (j : Json) : List String → Option Json
  | [] => some j
  | key :: path => (j.get? key).bind fun k => k.at? path

/-- The document with another value at a path of keys; where nothing is at the path, the document
as it is. -/
def replaceAt : Json → List String → Json → Json
  | _, [], value => value
  | .object members, key :: path, value =>
    .object (members.map fun m => (m.1, if m.1 = key then m.2.replaceAt path value else m.2))
  | j, _ :: _, _ => j

theorem at?_singleton (j : Json) (key : String) : j.at? [key] = j.get? key :=
  Option.bind_fun_some _

theorem at?_append (j : Json) (path path' : List String) :
    j.at? (path ++ path') = (j.at? path).bind fun k => k.at? path' := by
  induction path generalizing j with
  | nil => rfl
  | cons key path ih =>
      rw [List.cons_append, at?, at?, Option.bind_assoc]
      exact congrArg (Option.bind _) (funext ih)

theorem at?_pair (j : Json) (key key' : String) :
    j.at? [key, key'] = (j.get? key).bind fun k => k.get? key' :=
  congrArg (Option.bind _) (funext fun k => k.at?_singleton key')

theorem get?_replaceAt (j : Json) (key : String) (path : List String) (value : Json) (k : String) :
    (j.replaceAt (key :: path) value).get? k =
      if k = key then (j.get? k).map fun i => i.replaceAt path value else j.get? k := by
  cases j with
  | object members =>
      have hLookup := Dict.lookup_map
        (fun key' i => if key' = key then i.replaceAt path value else i) members.reverse k
      rw [List.map_reverse] at hLookup
      refine hLookup.trans ?_
      by_cases hKey : k = key
      · simp only [if_pos hKey]
        rfl
      · simp only [if_neg hKey, Option.map_id']
        rfl
  | _ => exact (ite_self none).symm

/-- On the way to the exchanged value the exchange is made in what is there. -/
theorem at?_replaceAt_append (j : Json) (before after : List String) (value : Json) :
    (j.replaceAt (before ++ after) value).at? before =
      (j.at? before).map fun i => i.replaceAt after value := by
  induction before generalizing j with
  | nil => rfl
  | cons key before ih =>
      rw [List.cons_append, at?, at?, get?_replaceAt, if_pos rfl, Option.bind_map, Option.map_bind]
      exact congrArg (Option.bind _) (funext ih)

/-- Paths that part from each other see nothing of an exchange on the other one. -/
theorem at?_replaceAt_of_apart {p q : List String} (hBehind : ¬ p <+: q) (hBefore : ¬ q <+: p)
    (j value : Json) : (j.replaceAt p value).at? q = j.at? q := by
  induction p generalizing q j with
  | nil => exact absurd List.nil_prefix hBehind
  | cons key p ih =>
      cases q with
      | nil => exact absurd List.nil_prefix hBefore
      | cons key' q =>
          rw [at?, at?, get?_replaceAt]
          by_cases hKey : key' = key
          · subst hKey
            rw [if_pos rfl, Option.bind_map]
            refine congrArg (Option.bind _) (funext fun k => ih ?_ ?_ k)
            · exact fun h => hBehind ((List.prefix_cons_inj key').2 h)
            · exact fun h => hBefore ((List.prefix_cons_inj key').2 h)
          · rw [if_neg hKey]

end PaneEngine.Json
