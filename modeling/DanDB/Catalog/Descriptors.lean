import DanDB.Record.LogicalType
import DanDB.Storage.Page

/-!
# Descriptors

What the catalog knows of a table, of a column and of an index.  Only `create`
makes a descriptor, so a descriptor has passed its checks.
-/

namespace DanDB.Catalog

open DanDB.Core Record Storage

abbrev TableId := UInt64

abbrev ColumnId := UInt64

abbrev IndexId := UInt64

def invalidTableId : TableId := 0xFFFFFFFFFFFFFFFF

def invalidColumnId : ColumnId := 0xFFFFFFFFFFFFFFFF

def invalidIndexId : IndexId := 0xFFFFFFFFFFFFFFFF

structure TableDescriptor where
  tableId : TableId
  name : String
  rootPageId : PageId
  tableId_valid : tableId ≠ invalidTableId
  name_ne : name ≠ ""
  root_valid : rootPageId ≠ invalidPageId
  root_ne_header : rootPageId ≠ headerPageId
deriving DecidableEq

def TableDescriptor.create (tableId : TableId) (name : String) (rootPageId : PageId) :
    Result TableDescriptor :=
  if h : tableId = invalidTableId then
    .error (.InvalidArgument "Cannot create table descriptor: table id cannot be invalid")
  else if hname : name = "" then
    .error (.InvalidArgument "Cannot create table descriptor: name cannot be empty")
  else if hroot : rootPageId = invalidPageId then
    .error (.InvalidArgument "Cannot create table descriptor: root page id cannot be invalid")
  else if hheader : rootPageId = headerPageId then
    .error (.InvalidArgument
      "Cannot create table descriptor: root page id cannot be the database header page")
  else .ok ⟨tableId, name, rootPageId, h, hname, hroot, hheader⟩

structure ColumnDescriptor where
  columnId : ColumnId
  tableId : TableId
  name : String
  logicalType : LogicalType
  ordinal : UInt64
  nullable : Bool
  primaryKey : Bool
  unique : Bool
  columnId_valid : columnId ≠ invalidColumnId
  tableId_valid : tableId ≠ invalidTableId
  name_ne : name ≠ ""
  unique_of_primaryKey : primaryKey = true → unique = true
  not_nullable_of_unique : unique = true → nullable = false
  indexable_of_unique : unique = true → logicalType.canBeIndexed = true
deriving DecidableEq

def ColumnDescriptor.create (columnId : ColumnId) (tableId : TableId) (name : String)
    (logicalType : LogicalType) (ordinal : UInt64) (nullable primaryKey unique : Bool) :
    Result ColumnDescriptor :=
  if hcolumn : columnId = invalidColumnId then
    .error (.InvalidArgument "Cannot create column descriptor: column id cannot be invalid")
  else if htable : tableId = invalidTableId then
    .error (.InvalidArgument "Cannot create column descriptor: table id cannot be invalid")
  else if hname : name = "" then
    .error (.InvalidArgument "Cannot create column descriptor: name cannot be empty")
  else if primaryKey = true ∧ nullable = true then
    .error (.InvalidArgument
      "Cannot create column descriptor: primary key column cannot be nullable")
  else if hprimary : primaryKey = true ∧ unique = false then
    .error (.InvalidArgument "Cannot create column descriptor: primary key column must be unique")
  else if hunique : unique = true ∧ nullable = true then
    .error (.InvalidArgument "Cannot create column descriptor: unique column cannot be nullable")
  else if primaryKey = true ∧ logicalType.canBeIndexed = false then
    .error (.InvalidArgument
      "Cannot create column descriptor: primary key column type must be indexable")
  else if hindexed : unique = true ∧ logicalType.canBeIndexed = false then
    .error (.InvalidArgument
      "Cannot create column descriptor: unique column type must be indexable")
  else .ok
    { columnId, tableId, name, logicalType, ordinal, nullable, primaryKey, unique
      columnId_valid := hcolumn
      tableId_valid := htable
      name_ne := hname
      unique_of_primaryKey := fun h => Bool.eq_true_of_not_eq_false fun h' => hprimary ⟨h, h'⟩
      not_nullable_of_unique := fun h => Bool.eq_false_of_not_eq_true fun h' => hunique ⟨h, h'⟩
      indexable_of_unique := fun h => Bool.eq_true_of_not_eq_false fun h' => hindexed ⟨h, h'⟩ }

structure IndexDescriptor where
  indexId : IndexId
  tableId : TableId
  name : String
  rootPageId : PageId
  unique : Bool
  primary : Bool
  internal : Bool
  indexedColumnId : ColumnId
  indexId_valid : indexId ≠ invalidIndexId
  tableId_valid : tableId ≠ invalidTableId
  name_ne : name ≠ ""
  root_valid : rootPageId ≠ invalidPageId
  root_ne_header : rootPageId ≠ headerPageId
  columnId_valid : indexedColumnId ≠ invalidColumnId
  unique_of_primary : primary = true → unique = true
  internal_of_primary : primary = true → internal = true
deriving DecidableEq

def IndexDescriptor.create (indexId : IndexId) (tableId : TableId) (name : String)
    (rootPageId : PageId) (unique primary internal : Bool) (indexedColumnId : ColumnId) :
    Result IndexDescriptor :=
  if hindex : indexId = invalidIndexId then
    .error (.InvalidArgument "Cannot create index descriptor: index id cannot be invalid")
  else if htable : tableId = invalidTableId then
    .error (.InvalidArgument "Cannot create index descriptor: table id cannot be invalid")
  else if hname : name = "" then
    .error (.InvalidArgument "Cannot create index descriptor: name cannot be empty")
  else if hroot : rootPageId = invalidPageId then
    .error (.InvalidArgument "Cannot create index descriptor: root page id cannot be invalid")
  else if hheader : rootPageId = headerPageId then
    .error (.InvalidArgument
      "Cannot create index descriptor: root page id cannot be the database header page")
  else if hcolumn : indexedColumnId = invalidColumnId then
    .error (.InvalidArgument "Cannot create index descriptor: indexed column id cannot be invalid")
  else if hunique : primary = true ∧ unique = false then
    .error (.InvalidArgument "Cannot create index descriptor: primary index must be unique")
  else if hinternal : primary = true ∧ internal = false then
    .error (.InvalidArgument "Cannot create index descriptor: primary index must be internal")
  else .ok
    { indexId, tableId, name, rootPageId, unique, primary, internal, indexedColumnId
      indexId_valid := hindex
      tableId_valid := htable
      name_ne := hname
      root_valid := hroot
      root_ne_header := hheader
      columnId_valid := hcolumn
      unique_of_primary := fun h => Bool.eq_true_of_not_eq_false fun h' => hunique ⟨h, h'⟩
      internal_of_primary := fun h => Bool.eq_true_of_not_eq_false fun h' => hinternal ⟨h, h'⟩ }

end DanDB.Catalog
