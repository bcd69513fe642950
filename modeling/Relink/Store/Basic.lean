/-
  Relink.Store.Basic — read and write access to files.

  Main definition:
    * `FileStore` — what a store must be able to do
-/

import Relink.Error
import Relink.Log

namespace Relink

/-- Access to the contents of files.  A store is a value: writing gives the
    store afterwards, and a failed write changes no file. -/
class FileStore (σ : Type) where
  /-- The whole text of a file. -/
  read : σ → Path → Except StoreError String
  /-- Gives a file a text: whether that worked, and the store afterwards. -/
  write : σ → Path → String → Traced (Except StoreError Unit × σ)
  /-- Whether a file or directory is there. -/
  has : σ → Path → Bool
  /-- The paths directly below a directory, sorted; none below a file or a
      missing directory. -/
  children : σ → Path → Except StoreError (List Path)

end Relink
