import Throttle.Address.Socket
import Throttle.Address.V4
import Throttle.Address.V6
import Throttle.Ascending
import Throttle.Config
import Throttle.Config.Printer
import Throttle.Config.Reader
import Throttle.Duration
import Throttle.Duration.Lemmas
import Throttle.Duration.Phrase
import Throttle.Duration.TimeUnit
import Throttle.Key
import Throttle.Limiter
import Throttle.Limiter.Pool
import Throttle.Middleware.Error
import Throttle.Middleware.Gateway
import Throttle.Middleware.Layer
import Throttle.Middleware.Response
import Throttle.Proofs.Accounting
import Throttle.Proofs.AddressGrammar
import Throttle.Proofs.Admissions
import Throttle.Proofs.Allowance
import Throttle.Proofs.BlockNodes
import Throttle.Proofs.BlockStyle
import Throttle.Proofs.BlockTrees
import Throttle.Proofs.BoundedList
import Throttle.Proofs.ByteOrder
import Throttle.Proofs.Conservation
import Throttle.Proofs.CoreSchema
import Throttle.Proofs.Delivery
import Throttle.Proofs.EarlyVisits
import Throttle.Proofs.Effects
import Throttle.Proofs.ExactHint
import Throttle.Proofs.History
import Throttle.Proofs.InFlight
import Throttle.Proofs.Isolation
import Throttle.Proofs.Keying
import Throttle.Proofs.Laxity
import Throttle.Proofs.Lending
import Throttle.Proofs.Online
import Throttle.Proofs.Order
import Throttle.Proofs.Passage
import Throttle.Proofs.Phrases
import Throttle.Proofs.Protection
import Throttle.Proofs.RetryHint
import Throttle.Proofs.RuleEffects
import Throttle.Proofs.SaveLoad
import Throttle.Proofs.Shedding
import Throttle.Proofs.SlidingWindow
import Throttle.Proofs.SpanRange
import Throttle.Proofs.Spellings
import Throttle.Proofs.Sweeping
import Throttle.Proofs.Tracking
import Throttle.Proofs.Transaction
import Throttle.Proofs.Words
import Throttle.Request
import Throttle.Ring
import Throttle.Ring.Lemmas
import Throttle.Rule
import Throttle.Slots
import Throttle.Slots.Lemmas
import Throttle.Text.Blank
import Throttle.Text.Digit
import Throttle.Text.Extender
import Throttle.Text.Fields
import Throttle.Text.Printable
import Throttle.Text.Quoted
import Throttle.Window
import Throttle.Yaml.Cursor
import Throttle.Yaml.Node
import Throttle.Yaml.Property
import Throttle.Yaml.Scalar.Block
import Throttle.Yaml.Scalar.Gap
import Throttle.Yaml.Scalar.Plain
import Throttle.Yaml.Scalar.Quoted
import Throttle.Yaml.Schema
import Throttle.Yaml.Tag
import Throttle.Yaml.Token
import Throttle.Yaml.Tokens
