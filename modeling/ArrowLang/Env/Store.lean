import ArrowLang.Env

/-!
# ArrowLang.Env.Store

Environments under names. Each stored environment has an identity, so that one can ask whether two
names stand for the very same environment and not only for equal ones.
-/

namespace ArrowLang

/-- An environment with its identity. -/
structure StoredEnv where
  id : Nat
  env : Env

/-- Environments by name, and the next identity to give. -/
structure EnvStore where
  next : Nat
  entries : List (String × StoredEnv)

namespace EnvStore

def empty : EnvStore := ⟨0, []⟩

def get? (store : EnvStore) (name : String) : Option StoredEnv := store.entries.lookup name

/-- Stores a new environment under `name`. -/
def create (store : EnvStore) (name : String) (env : Env) : EnvStore :=
  ⟨store.next + 1, (name, ⟨store.next, env⟩) :: store.entries⟩

/-- Stores an extension of `e` under `name`. It is a new environment unless `e` is its own
extension. -/
def extend (store : EnvStore) (name : String) (e : StoredEnv) (bindings : Bindings) : EnvStore :=
  if e.env.isOwnExtension bindings then { store with entries := (name, e) :: store.entries }
  else store.create name (e.env.extend bindings)

end EnvStore

end ArrowLang
