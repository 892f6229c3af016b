import ScriptHost.Script.Heap

/-!
# Snapshots of values

A value as JSON, with all that it leads to. Objects are numbered as they are first met, an object
before its items and these before its properties, which are taken in the order of their names. An
object that is met again is a reference to its number.

## Main definitions

* `Script.State.snapshot`: the snapshot of a value.
-/

namespace ScriptHost.Script

/-- Properties in the order of their names. -/
def sortedRows (t : Table String Value) : List (String × Value) :=
  t.rows.mergeSort fun a b => !decide (b.1 < a.1)

namespace State

mutual

/-- The snapshot of a value after the objects `seen`, last met first, and what has been seen then;
`fuel` bounds the depth. -/
def picture (s : State) : Nat → List Nat → Value → Json × List Nat
  | 0, seen, _ => (.null, seen)
  | fuel + 1, seen, v =>
    match v with
    | .undefined => (.null, seen)
    | .bool b => (.bool b, seen)
    | .number x => (.ofDouble x, seen)
    | .string t => (.string t, seen)
    | .object place =>
      if seen.contains place then
        (.object [("ref", .int (seen.length - 1 - (seen.idxOf place : Nat) : Int))], seen)
      else
        match s.heap[place]? with
        | none => (.null, seen)
        | some o =>
          let seen := place :: seen
          let (head, seen) : List (String × Json) × List Nat :=
            match o.kind with
            | .plain => ([], seen)
            | .array items =>
              let (vs, seen) := pictures s fuel seen items
              ([("arr", .array vs)], seen)
            | .native _ name arity => ([("native", .string name), ("arity", .int arity)], seen)
            | .function .. => ([("fn", .bool true)], seen)
            | .error kind => ([("err", .string kind.name)], seen)
          if o.properties.isEmpty && !head.isEmpty then (.object head, seen)
          else
            let rows := sortedRows o.properties
            let (vs, seen) := pictures s fuel seen (rows.map Prod.snd)
            (.object (head ++ [("obj", .object ((rows.map Prod.fst).zip vs))]), seen)
termination_by fuel => (fuel, 0)

/-- The snapshots of values, one after the other. -/
def pictures (s : State) (fuel : Nat) (seen : List Nat) : List Value → List Json × List Nat
  | [] => ([], seen)
  | v :: vs =>
    let (j, seen) := picture s fuel seen v
    let (js, seen) := pictures s fuel seen vs
    (j :: js, seen)
termination_by vs => (fuel, vs.length + 1)

end

/-- The snapshot of a value. Each level of depth meets an object that was not seen before, so that
the number of objects bounds it. -/
def snapshot (s : State) (v : Value) : Json := (s.picture (s.heap.size + 2) [] v).1

end State

end ScriptHost.Script
