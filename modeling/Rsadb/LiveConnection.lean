import Rsadb.Channel

/-! Something that can open service streams, again and again. -/
namespace Rsadb

/-- What opens streams by the names of their services and knows what the device
can do. `σ` is the state of what is behind it, which changes with every stream. -/
structure LiveConnection (σ : Type) where
  openService : String → Async Error σ Channel
  features : Async Error σ (List String)

/-- What is done with a stream has no part in the state behind the connection. -/
def Channel.within {σ α : Type} (channel : Channel) (op : Async Error Channel α) : Async Error σ α := fun s =>
  ((op channel).1, s)

end Rsadb
