import UsageRules.Fact
import UsageRules.Record

/-! Known conventions of two facts, and the labelling of the rules that extend them. -/

namespace UsageRules

namespace Convention

def fact (source : String) (relation : Relation) (target : String) : String :=
  Fact.text source relation.name target

/-- The reviewed conventions. -/
def knownPairs : List (List String) := [
  [fact "Method" .annotatedWith
      "Annotation_org.eclipse.microprofile.openapi.annotations.Operation",
    fact "Method" .hasReturnType "javax.ws.rs.core.Response"],
  [fact "Method" .annotatedWith
      "Annotation_org.eclipse.microprofile.openapi.annotations.Operation",
    fact "Class" .annotatedWith "Annotation_javax.ws.rs.Path"],
  [fact "Field" .hasType "org.eclipse.microprofile.jwt.JsonWebToken",
    fact "Field" .annotatedWith "Annotation_javax.inject.Inject"],
  [fact "Field" .annotatedWith "Annotation_org.eclipse.microprofile.jwt.Claim",
    fact "Field" .annotatedWith "Annotation_javax.inject.Inject"],
  [fact "Method" .annotatedWith "Annotation_javax.ws.rs.Path",
    fact "Method" .annotatedWith "Annotation_javax.ws.rs.Consumes"],
  [fact "Field" .annotatedWith
      "Annotation_org.eclipse.microprofile.config.inject.ConfigProperty",
    fact "Field" .annotatedWith "Annotation_javax.inject.Inject"],
  [fact "Class" .annotatedWith "Annotation_org.eclipse.microprofile.graphql.GraphQLApi",
    fact "Method" .annotatedWith "Annotation_org.eclipse.microprofile.graphql.Query"],
  [fact "Class" .annotatedWith
      "Annotation_org.eclipse.microprofile.faulttolerance.Asynchronous",
    fact "Method" .hasReturnType "java.util.concurrent.CompletionStage"],
  [fact "Method" .annotatedWith "Annotation_org.eclipse.microprofile.faulttolerance.Fallback",
    fact "Annotation_org.eclipse.microprofile.faulttolerance.Fallback" .hasParam
      "Param_fallbackMethod:java.lang.String"],
  [fact "Method" .annotatedWith
      "Annotation_org.eclipse.microprofile.reactive.messaging.Incoming",
    fact "Class" .annotatedWith "Annotation_javax.enterprise.context.ApplicationScoped"],
  [fact "Method" .annotatedWith
      "Annotation_org.eclipse.microprofile.reactive.messaging.Outgoing",
    fact "Class" .annotatedWith "Annotation_javax.enterprise.context.ApplicationScoped"],
  [fact "Class" .annotatedWith
      "Annotation_org.eclipse.microprofile.rest.client.inject.RegisterRestClient",
    fact "Class" .annotatedWith "Annotation_javax.ws.rs.Path"],
  [fact "Class" .annotatedWith "Annotation_org.eclipse.microprofile.health.Liveness",
    fact "Class" .implementing "Interface_org.eclipse.microprofile.health.HealthCheck"],
  [fact "Class" .annotatedWith "Annotation_org.eclipse.microprofile.health.Readiness",
    fact "Class" .implementing "Interface_org.eclipse.microprofile.health.HealthCheck"],
  [fact "Class" .annotatedWith "Annotation_org.eclipse.microprofile.health.Health",
    fact "Class" .implementing "Interface_org.eclipse.microprofile.health.HealthCheck"],
  [fact "Annotation_org.eclipse.microprofile.faulttolerance.Fallback" .hasParam
      "Param_value:java.lang.Class",
    fact "Method" .annotatedWith "Annotation_org.eclipse.microprofile.faulttolerance.Fallback"],
  [fact "Field" .annotatedWith
      "Annotation_org.eclipse.microprofile.rest.client.inject.RestClient",
    fact "Field" .annotatedWith "Annotation_javax.inject.Inject"],
  [fact "Class" .annotatedWith
      "Annotation_org.eclipse.microprofile.openapi.annotations.tags.Tag",
    fact "Class" .annotatedWith "Annotation_javax.ws.rs.Path"]]

def known : List ItemSet := knownPairs.map SortedSet.ofList

end Convention

namespace Record

/-- Unknown, of more than two items, and with all items of one of the patterns. -/
def extendsPattern (patterns : List ItemSet) (r : Record) : Bool :=
  r.label.isUnknown && 2 < r.items.size && patterns.any (· ⊆ r.items)

def autoLabel (patterns : List ItemSet) (records : List Record) : List Record :=
  records.map fun r => if r.extendsPattern patterns then { r with label := .partlyCorrect } else r

def autoLabelCount (patterns : List ItemSet) (records : List Record) : Nat :=
  records.countP (extendsPattern patterns)

end Record

end UsageRules
