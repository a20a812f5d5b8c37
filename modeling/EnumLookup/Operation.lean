/-!
# Lookup operations

The three lookups that can be generated. Each has a file of its own, a typed helper function per
enum, named by a suffix, and one function that dispatches on the type tag.
-/

namespace EnumLookup

/-- A lookup that can be generated, in the order in which they are listed. -/
inductive Operation where
  /-- From a value to the name of the first member that has it. -/
  | nameLookup
  /-- All members with their values. -/
  | valueTable
  /-- From a name to its value. -/
  | tryParse
  deriving DecidableEq, Repr

namespace Operation

/-- Every operation once, in order. -/
def all : List Operation := [nameLookup, valueTable, tryParse]

/-- The operation's name on the command line and in data. -/
def text : Operation → String
  | nameLookup => "name-lookup"
  | valueTable => "value-table"
  | tryParse => "try-parse"

def ofText? (s : String) : Option Operation := all.find? (·.text == s)

/-- The module that holds the operation's functions. -/
def moduleName : Operation → String
  | nameLookup => "name_lookup"
  | valueTable => "value_table"
  | tryParse => "try_parse"

/-- What follows an enum's discriminator in the name of its helper. -/
def suffix : Operation → String
  | nameLookup => "name"
  | valueTable => "values"
  | tryParse => "try_parse"

/-- The function that dispatches on the type tag. -/
def dispatcher : Operation → String
  | nameLookup => "enum_name"
  | valueTable => "enum_values"
  | tryParse => "try_parse_enum"

end Operation

end EnumLookup
