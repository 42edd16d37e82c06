import DanDB.Catalog.CatalogLoader

/-!
# Looking things up

What the statements read of the state of the catalog that they see.
-/

namespace DanDB.Catalog

open Record

variable (state : Catalog)

/-- `find_table` by its id. -/
def findTable (tableId : TableId) : Option TableDescriptor :=
  (state.tableById.lookup tableId).map TableInfo.tableDescriptor

/-- `find_table` by its name. -/
def findTableByName (name : String) : Option TableDescriptor :=
  state.tableIdByName.lookup name >>= state.findTable

def schemaForTable (tableId : TableId) : Option Schema := state.tableSchemaById.lookup tableId

/-- The columns of a table. -/
def columnsOf (tableId : TableId) : List ColumnDescriptor :=
  (state.tableById.lookup tableId).elim [] TableInfo.columns

/-- `find_column` by its id. -/
def findColumn (tableId : TableId) (columnId : ColumnId) : Option ColumnDescriptor :=
  (state.columnsOf tableId).find? fun column => column.columnId = columnId

/-- `find_column` by its name. -/
def findColumnByName (tableId : TableId) (name : String) : Option ColumnDescriptor :=
  (state.columnsOf tableId).find? fun column => column.name = name

def indexesForTable (tableId : TableId) : List IndexDescriptor :=
  (state.tableById.lookup tableId).elim [] TableInfo.indexes

end DanDB.Catalog
