import AivenExamples.Data.Fields

/-! The names of Kafka topics. -/

namespace AivenExamples

/-- The characters of topic names. -/
def legalChar (char : Char) : Bool := char.isAlphanum || char = '.' || char = '_' || char = '-'

/-- The name of a Kafka topic. -/
structure TopicName where
  name : List Char
  nonempty : name ≠ []
  legal : ∀ char ∈ name, legalChar char

/-- A name does not have characters in it that are not legal. -/
theorem TopicName.not_mem (topic : TopicName) {char : Char} (illegal : legalChar char = false) :
    char ∉ topic.name := by
  intro member
  rw [topic.legal char member] at illegal
  exact Bool.noConfusion illegal

/-- A name is a word. -/
theorem TopicName.isWord (topic : TopicName) : Fields.IsWord topic.name :=
  ⟨topic.nonempty, @Fields.solid_of_all legalChar (by decide) (by decide) _ topic.legal⟩

end AivenExamples
