import XmlPipeline.Suite.Discovery
set_option autoImplicit false

namespace XmlPipeline.Suite

def requestName (request : String) : String :=
  String.ofList (Text.dropEndWhile (· = '/') (request.toList.dropWhile (· = '/')))

def matchesRequest (request category : String) : Bool :=
  category = requestName request ||
    ((requestName request).toList ++ ['/']).isPrefixOf category.toList

/-- Without any request all categories are selected. -/
def select (all : List Category) (requests : List String) : List Category :=
  if requests = [] then all else all.filter fun c => requests.any (matchesRequest · c.name)

def Category.label (c : Category) : String := if c.name = "" then "(root)" else c.name

def notFound (all : List Category) (request : String) : Log.Record :=
  ⟨.warn, "xpl::test_runner", "category not found",
    [("category", Text.quote (requestName request)),
      ("available", ", ".intercalate (all.map Category.label))]⟩

/-- A warning for each request that selects nothing. -/
def selectionJournal (all : List Category) (requests : List String) : List Log.Record :=
  (requests.filter fun r => !all.any fun c => matchesRequest r c.name).map (notFound all)

end XmlPipeline.Suite
