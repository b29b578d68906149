import DocStore.Database.Access
import DocStore.Database.Opening
import DocStore.Filter.Text
import DocStore.Path.Reaches
import DocStore.Pipeline
import DocStore.Proofs.Reading
import DocStore.Proofs.Equijoin
import DocStore.Proofs.Interleaving
import DocStore.Proofs.Exchanges
import DocStore.Proofs.Concatenation
import DocStore.Proofs.Commuting
import DocStore.Proofs.Doubles
import DocStore.Proofs.Numbers
import DocStore.Proofs.Nearest
import DocStore.Proofs.Decimals
import DocStore.Proofs.Equality
import DocStore.Proofs.Ordering
import DocStore.Proofs.Respelling
import DocStore.Proofs.Gathering
import DocStore.Proofs.Resolving
import DocStore.Proofs.TextOrder
import DocStore.Proofs.Registry
import DocStore.Proofs.Selfjoin
import DocStore.Proofs.Shortening
import DocStore.Proofs.Nesting
import DocStore.Proofs.Rewording
import DocStore.Proofs.Ranges
import DocStore.Proofs.Requests
import DocStore.Proofs.Configurations
import DocStore.Proofs.Specifications
import DocStore.Proofs.Readers
import DocStore.Proofs.Audits
import DocStore.Proofs.Places
import DocStore.Proofs.Directories
import DocStore.Proofs.LogFolders
import DocStore.Proofs.Confinement
import DocStore.Proofs.Literals
import DocStore.Proofs.Shapes
