import DocStore.Action
import DocStore.Database

/-!
# Databases as collaborators of stages

The collections of a database as targets of queries, and the database as the resolver of their
names.
-/

namespace DocStore.Database

/-- The incarnation of a handle as a target of queries. -/
def target (name : String) (h : Handle) : Target Database where
  name := name
  query filter := Action.ofStep fun db => db.query h filter

/-- The database as the resolver of names. -/
def resolver : Resolver Database := fun name create => do
  let h ← Action.ofStep fun db => db.resolve name create
  return target name h

end DocStore.Database
