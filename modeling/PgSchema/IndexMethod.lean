/-
# Index access methods

The access methods of indexes, what each of them allows, and which one suits a column.
-/
import PgSchema.Loading.Checked
import PgSchema.Text.Blank
import PgSchema.Text.Case
import PgSchema.Text.Search
import PgSchema.Vocabulary

namespace PgSchema

/-- The access methods of indexes. -/
inductive IndexMethod
  /-- Ordered: equality and ranges. -/
  | btree
  /-- Equality on one column. -/
  | hash
  /-- Inverted: containment in arrays, documents and text. -/
  | gin
  /-- Search tree over shapes and ranges. -/
  | gist
  /-- Search tree that partitions space. -/
  | spgist
  /-- Summaries of block ranges. -/
  | brin
deriving DecidableEq, Repr

namespace IndexMethod

/-- The word for a method, which is also its SQL name. -/
def word : IndexMethod → String
  | btree => "btree"
  | hash => "hash"
  | gin => "gin"
  | gist => "gist"
  | spgist => "spgist"
  | brin => "brin"

/-- The methods. -/
def all : List IndexMethod := [btree, hash, gin, gist, spgist, brin]

instance : Vocabulary IndexMethod := ⟨all, word⟩

instance : LawfulVocabulary IndexMethod := ⟨fun method => by cases method <;> rfl⟩

/-- Reads a method in any case, with or without hyphens: `B-Tree`, `sp-gist`. -/
def read (s : String) : Except BrokenRule IndexMethod :=
  let written := String.ofList ((Text.lower (Text.trim s)).toList.filter (· != '-'))
  match Vocabulary.ofWord? written with
  | some method => .ok method
  | none => .error (.unknownMethod written)

/-- The operators that an index of the method serves. -/
def operators : IndexMethod → List String
  | btree => ["=", "<", "<=", ">", ">=", "BETWEEN", "IN", "IS NULL"]
  | hash => ["=", "IN"]
  | gin => ["@>", "<@", "?", "?&", "?|", "@@", "@@@"]
  | gist => ["<<", "&<", "&>", ">>", "<->", "&&", "~="]
  | spgist => ["<<", "^@", "~=", "<->", "&<|", "|&>"]
  | brin => ["=", "<", "<=", ">", ">=", "BETWEEN"]

/-- Holds when an index of the method serves every given operator. -/
def serves (method : IndexMethod) (wanted : List String) : Bool :=
  wanted.all method.operators.contains

/-- Holds for the methods that take several columns. -/
def allowsMultipleColumns (method : IndexMethod) : Bool := method != hash

/-- Holds for the methods that keep an order. -/
def allowsOrdering (method : IndexMethod) : Bool := method != hash

/-- Holds for the method that stores further columns. -/
def allowsInclude (method : IndexMethod) : Bool := method == btree

/-- Holds for the methods that can enforce uniqueness. -/
def allowsUnique (method : IndexMethod) : Bool := method != brin

/-- Holds for the methods with a fill factor. -/
def allowsFillFactor (method : IndexMethod) : Bool := method == btree || method == hash

/-- The storage parameters of a method, apart from the fill factor. -/
def storageParameters : IndexMethod → List String
  | btree => ["deduplicate_items"]
  | hash => []
  | gin => ["fastupdate", "gin_pending_list_limit"]
  | gist => ["buffering"]
  | spgist => []
  | brin => ["pages_per_range", "autosummarize"]

/-- Holds when the method takes the storage parameter; each takes `fillfactor`. -/
def allowsStorageParameter (method : IndexMethod) (parameter : String) : Bool :=
  parameter == "fillfactor" || method.storageParameters.contains parameter

/-- The methods for kinds of queries. -/
def queryMethods : List (String × IndexMethod) :=
  [("equality", hash), ("exact", hash), ("range", btree), ("between", btree),
   ("comparison", btree), ("fulltext", gin), ("search", gin), ("containment", gin),
   ("array", gin), ("proximity", gist), ("nearest", gist), ("prefix", spgist),
   ("startswith", spgist), ("timeseries", brin), ("ordered", brin)]

/-- The method that suits a column type and a kind of query: the type decides first. -/
def recommend (sqlType : String) (query : String) : IndexMethod :=
  let type := Text.upper sqlType
  let query := Text.lower query
  if Text.contains type "JSONB" || Text.contains type "[]" then gin
  else if ["POINT", "POLYGON", "GEOMETRY"].any (Text.contains type) then gist
  else if type == "INET" || type == "CIDR" then
    if Text.contains query "prefix" then spgist else btree
  else ((queryMethods.find? fun entry => entry.1 == query).map (·.2)).getD btree

end IndexMethod
end PgSchema
