import DanDB.Core.Bytes

/-!
# Pages

A page id is a 64-bit number whose largest value stands for "no page".  Page 0
holds the database header, so the first page that can be allocated is page 1.
The data of a page is an array of exactly `pageSize` bytes.
-/

namespace DanDB.Storage

open DanDB.Core

abbrev PageId := UInt64

def pageSize : Nat := 4096

def invalidPageId : PageId := 0xffffffffffffffff
def headerPageId : PageId := 0
def firstAllocatablePageId : PageId := 1

/-- `PageId::is_valid`. -/
def PageId.isValid (pageId : PageId) : Bool := pageId != invalidPageId

/-- The bytes of one page. -/
abbrev PageData := Bytes pageSize

/-- A page with its id. -/
@[ext] structure Page where
  /-- `id()` -/
  id : PageId
  /-- `data()` -/
  data : PageData
deriving DecidableEq

/-- The page object made for an id, all bytes zero. -/
def Page.ofId (pageId : PageId) : Page := ⟨pageId, .zero⟩

instance : Inhabited Page := ⟨Page.ofId invalidPageId⟩

end DanDB.Storage
