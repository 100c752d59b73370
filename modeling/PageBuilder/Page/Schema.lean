import PageBuilder.Json.Basic

/-!
What a page has to know about the components it shows.
-/

namespace PageBuilder

structure PropSchema where
  /-- Elements of other components hold no state and show no props. -/
  knows : String → Bool
  /-- The props of a component that hold interactive state. -/
  controlled : String → List String
  /-- What a controlled prop starts with when no value is given. -/
  default? : String → String → Option Json

def PropSchema.isControlled (schema : PropSchema) (component prop : String) : Bool :=
  (schema.controlled component).contains prop

end PageBuilder
