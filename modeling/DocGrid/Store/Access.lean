import DocGrid.Failure
import DocGrid.Store.Selection
import DocGrid.Store.Table

/-! What all stores offer. -/

namespace DocGrid

/-- The reads of a store. A read that fails leaves the others to be made. -/
structure Reader (m : Type → Type) where
  find : Table → Selection → m (Result (List Document))
  count : Table → Option Filter → m (Result Int)
  aggregate : Table → Value → m (Result (List Value))

/-- The reads and writes of a store. Insertions answer with the rows as the store keeps them. -/
structure DocumentStore (m : Type → Type) extends Reader m where
  setup : List Table → m (Result Unit)
  insert : Table → Document → m (Result Document)
  insertAll : Table → List Document → m (Result (List Document))

end DocGrid
