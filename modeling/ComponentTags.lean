import ComponentTags.Compiler.Session
import ComponentTags.Main
import ComponentTags.Settings.Session
import ComponentTags.Proofs.CompiledDocument
import ComponentTags.Proofs.OpaqueValue
import ComponentTags.Proofs.UnusedComponent
import ComponentTags.Proofs.RewriteCount
import ComponentTags.Proofs.TagBudget
import ComponentTags.Proofs.UnrelatedText
import ComponentTags.Proofs.EmptyPair
import ComponentTags.Proofs.Refusal
import ComponentTags.Proofs.RegistryHistory
import ComponentTags.Proofs.ContextDirectives
import ComponentTags.Proofs.SessionAnswers
import ComponentTags.Proofs.Delivery
import ComponentTags.Proofs.ScopeFrames
import ComponentTags.Proofs.QuoteReading
import ComponentTags.Proofs.LiteralReading
import ComponentTags.Proofs.LiveRegistry
import ComponentTags.Proofs.HonouredShorthand
import ComponentTags.Proofs.AttributeForms
import ComponentTags.Proofs.AcceptedName
import ComponentTags.Proofs.SlotPass
import ComponentTags.Proofs.LinePass
import ComponentTags.Proofs.OpeningGrammar
import ComponentTags.Proofs.ClosingPass
import ComponentTags.Proofs.EnvironmentOverrides
import ComponentTags.Proofs.LayeredValues
import ComponentTags.Proofs.ShorthandPlaces
import ComponentTags.Proofs.RenderedKeys
import ComponentTags.Proofs.DerivedTag
import ComponentTags.Proofs.KebabNormalForm
