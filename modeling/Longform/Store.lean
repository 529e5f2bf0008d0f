import Longform.Error
import Longform.Lookup

/-!
# Stores

A store holds the documents of a vault. Every operation may change it: a search
may remember what it saw and a read may be counted.
-/

namespace Longform

/-- Access to the documents of a vault, as changes of a state. -/
class Store (σ : Type) where
  /-- Searches the document that an address names. -/
  find : String → σ → Lookup × σ
  /-- The text of a document. -/
  read : Document → σ → Except Error String × σ
  /-- Creates or replaces a document. -/
  write : Document → String → σ → Except Error Unit × σ

/-- The image that an address names. A drawing is shown by the picture that is kept beside it. -/
def Store.findImage {σ : Type} [Store σ] (address : String) (s : σ) : Lookup × σ :=
  Store.find (if hasExtension address "excalidraw" then address ++ ".png" else address) s

end Longform
