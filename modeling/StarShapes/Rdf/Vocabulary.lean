/-!
The IRIs that have a meaning here: those of RDF, of the XML Schema datatypes and of ShExR, the RDF
form of shape expressions.
-/

namespace StarShapes.Vocabulary

/-! ### RDF -/

/-- The class of a node. -/
def rdfType : String := "http://www.w3.org/1999/02/22-rdf-syntax-ns#type"

/-- The element of a list cell. -/
def rdfFirst : String := "http://www.w3.org/1999/02/22-rdf-syntax-ns#first"

/-- What follows a list cell. -/
def rdfRest : String := "http://www.w3.org/1999/02/22-rdf-syntax-ns#rest"

/-- The empty list. -/
def rdfNil : String := "http://www.w3.org/1999/02/22-rdf-syntax-ns#nil"

/-- The datatype of language-tagged literals. -/
def rdfLangString : String := "http://www.w3.org/1999/02/22-rdf-syntax-ns#langString"

/-! ### XML Schema datatypes -/

/-- The datatype of simple literals. -/
def xsdString : String := "http://www.w3.org/2001/XMLSchema#string"

/-- The datatype of numbers written with digits alone. -/
def xsdInteger : String := "http://www.w3.org/2001/XMLSchema#integer"

/-- The datatype of numbers written with a point. -/
def xsdDecimal : String := "http://www.w3.org/2001/XMLSchema#decimal"

/-- The datatype of numbers written with an exponent. -/
def xsdDouble : String := "http://www.w3.org/2001/XMLSchema#double"

/-- The datatype of truth values. -/
def xsdBoolean : String := "http://www.w3.org/2001/XMLSchema#boolean"

/-! ### ShExR -/

/-- A name of the shape expression vocabulary. -/
def shex (name : String) : String := "http://www.w3.org/ns/shex#" ++ name

end StarShapes.Vocabulary
